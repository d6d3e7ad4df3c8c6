import Propositional.Connective

/-!
# Symbols

What a text consists of: tokens, each with the text that spelled it.
-/

namespace Propositional

inductive Token where
  | and
  | or
  | not
  | xor
  | equiv
  | implies
  | provided
  | constTrue
  | constFalse
  | var
  | openParen
  | closeParen
deriving DecidableEq

namespace Token

def name : Token → String
  | and => "AND"
  | or => "OR"
  | not => "NOT"
  | xor => "XOR"
  | equiv => "EQUIV"
  | implies => "IMPLIES"
  | provided => "PROVIDED"
  | constTrue => "CONST_TRUE"
  | constFalse => "CONST_FALSE"
  | var => "VAR"
  | openParen => "OPEN_PAREN"
  | closeParen => "CLOSE_PAREN"

/-- The connective that a token writes. -/
def connective? : Token → Option Connective
  | and => some .and
  | or => some .or
  | xor => some .xor
  | equiv => some .equiv
  | implies => some .implies
  | provided => some .provided
  | _ => none

end Token

structure Symbol where
  token : Token
  lexeme : String
deriving DecidableEq

/-- The form of a symbol in messages: the token's name and the lexeme. -/
def Symbol.describe (s : Symbol) : String :=
  s.token.name ++ "(" ++ s.lexeme ++ ")"

end Propositional
