import Propositional.Formula
import Propositional.Symbol.Lexer

/-!
# Grammar

The formula that a list of symbols stands for.

    disjunction ::= conjunction (("∨" | "⊻") disjunction)?
    conjunction ::= "~"? operand (("∧" | "≡" | "⇒" | "⇐") conjunction)?
    operand     ::= VAR | CONST_TRUE | CONST_FALSE | "(" disjunction ")"

Each use of a rule takes one unit of a budget, which bounds how deeply uses nest: a
connective in a chain costs one unit and a pair of parentheses three. The budget is
looked at before the symbols are.
-/

namespace Propositional

namespace Grammar

/-- What a rule makes of a list of symbols: a formula and the symbols after it. -/
abbrev Reading := Except SyntaxError (Formula × List Symbol)

/-- Splits off a connective that is as loose as asked at the start of the symbols. -/
def connective? (loose : Bool) : List Symbol → Option (Connective × List Symbol)
  | [] => none
  | s :: rest =>
    match s.token.connective? with
    | some op => if op.isLoose = loose then some (op, rest) else none
    | none => none

/-- Splits off a negation sign at the start of the symbols, if there is one. -/
def negation (symbols : List Symbol) : Bool × List Symbol :=
  match symbols with
  | ⟨.not, _⟩ :: rest => (true, rest)
  | _ => (false, symbols)

/-- Expects a closing parenthesis after a formula. -/
def closed : Formula × List Symbol → Reading
  | (f, ⟨.closeParen, _⟩ :: rest) => .ok (f, rest)
  | _ => .error .unclosed

mutual

def disjunction : Nat → List Symbol → Reading
  | 0, _ => .error .tooDeep
  | budget + 1, symbols => do
    let (left, symbols) ← conjunction budget symbols
    match connective? true symbols with
    | none => return (left, symbols)
    | some (op, symbols) =>
      let (right, symbols) ← disjunction budget symbols
      return (.binary op left right, symbols)

def conjunction : Nat → List Symbol → Reading
  | 0, _ => .error .tooDeep
  | budget + 1, symbols => do
    let (negated, symbols) := negation symbols
    let (f, symbols) ← operand budget symbols
    let left := if negated then .negation f else f
    match connective? false symbols with
    | none => return (left, symbols)
    | some (op, symbols) =>
      let (right, symbols) ← conjunction budget symbols
      return (.binary op left right, symbols)

def operand : Nat → List Symbol → Reading
  | 0, _ => .error .tooDeep
  | _ + 1, [] => .error .operandMissing
  | budget + 1, s :: symbols =>
    match s.token with
    | .openParen => do closed (← disjunction budget symbols)
    | .var => .ok (.var s.lexeme, symbols)
    | .constTrue => .ok (.constant true, symbols)
    | .constFalse => .ok (.constant false, symbols)
    | _ => .error (.operandExpected s)

end

/-- The budget that a whole text has. -/
def depthLimit : Nat := 4096

/-- Expects nothing after a formula. -/
def complete : Formula × List Symbol → Except SyntaxError Formula
  | (f, []) => .ok f
  | (_, s :: _) => .error (.extra s)

end Grammar

/-- The formula that a whole list of symbols stands for. -/
def Formula.ofSymbols (symbols : List Symbol) : Except Error Formula :=
  if symbols.isEmpty then .error (.input .emptyExpression)
  else (Grammar.disjunction Grammar.depthLimit symbols >>= Grammar.complete).mapError .grammar

/-- The formula that a text stands for. -/
def Formula.ofText (text : String) : Except Error Formula := do
  ofSymbols (← (lex text).mapError .lex)

end Propositional
