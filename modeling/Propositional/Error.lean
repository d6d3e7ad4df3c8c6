import Propositional.Symbol
import Propositional.Text.Quoted

/-!
# Errors

The ways in which reading, evaluating or tabulating a formula can fail, by cause,
and the wording of each.
-/

namespace Propositional

/-- No token can be read at a position, counted in bytes. At the end of the text the
character found is NUL. -/
structure LexError where
  position : Nat
  found : Char
deriving DecidableEq

inductive SyntaxError where
  | tooDeep
  | unclosed
  | operandExpected (found : Symbol)
  | operandMissing
  | extra (found : Symbol)
deriving DecidableEq

inductive InputError where
  | emptyExpression
  | notVariable (index : Nat)
  | foreignNode (index : Nat)
  | malformedAssignment (item : String)
  | unknownValue (label text : String)
  | noExpression
  | failures (failed total : Nat)
deriving DecidableEq

/-- A variable that was needed holds no value. -/
structure Unassigned where
  label : String
deriving DecidableEq

inductive Error where
  | lex (cause : LexError)
  | grammar (cause : SyntaxError)
  | input (cause : InputError)
  | evaluation (cause : Unassigned)
  | tooManyVariables (count limit : Nat)
deriving DecidableEq

/-- The classes that a message announces. -/
inductive ErrorKind where
  | lex
  | grammar
  | input
  | evaluation
  | tooManyVariables
deriving DecidableEq

-- ---------------------------------------------------------------------------
-- Wording
-- ---------------------------------------------------------------------------

def LexError.detail (e : LexError) : String :=
  s!"unknown symbol {Text.quoteChar e.found} at position {e.position}"

def SyntaxError.detail : SyntaxError → String
  | tooDeep => "expression too deep"
  | unclosed => "closing parenthesis not found"
  | operandExpected found =>
    s!"expected operand, found {found.token.name} ({Text.quote found.lexeme})"
  | operandMissing => "expected operand, got end of expression"
  | extra found => s!"extra content found at end of input: {Text.quote found.lexeme}"

def InputError.detail : InputError → String
  | emptyExpression => "expression is empty"
  | notVariable index => s!"node {index} is not a variable of this expression"
  | foreignNode index => s!"node {index} does not belong to this expression"
  | malformedAssignment item => s!"invalid assignment: {item}"
  | unknownValue label text => s!"invalid value for {label}: {text}"
  | noExpression => "no expression given, use --expr or --input"
  | failures failed total => s!"{failed} of {total} expressions failed"

def Unassigned.detail (e : Unassigned) : String :=
  s!"variable {e.label} has no assigned value"

namespace ErrorKind

def heading : ErrorKind → String
  | lex => "LexError"
  | grammar => "SyntaxError"
  | input => "InputError"
  | evaluation => "EvalError"
  | tooManyVariables => "TooManyVariables"

/-- A message of the given class. -/
def announce (kind : ErrorKind) (detail : String) : String :=
  kind.heading ++ ": " ++ detail

end ErrorKind

namespace Error

def kind : Error → ErrorKind
  | lex _ => .lex
  | grammar _ => .grammar
  | input _ => .input
  | evaluation _ => .evaluation
  | tooManyVariables _ _ => .tooManyVariables

def detail : Error → String
  | lex cause => cause.detail
  | grammar cause => cause.detail
  | input cause => cause.detail
  | evaluation cause => cause.detail
  | tooManyVariables count limit => s!"{count} variables exceeds the limit of {limit}"

def message (e : Error) : String :=
  e.kind.announce e.detail

end Error

end Propositional
