/-!
# Connectives

The six binary connectives. A connective acts on the operand written after it,
`lhs`, and the one written before it, `rhs`, in this order; only the two arrows
tell them apart.
-/

namespace Propositional

inductive Connective where
  | and
  | or
  | xor
  | equiv
  | implies
  | provided
deriving DecidableEq

namespace Connective

/-- The truth table of a connective. -/
def apply : Connective → (lhs rhs : Bool) → Bool
  | and, lhs, rhs => lhs && rhs
  | or, lhs, rhs => lhs || rhs
  | xor, lhs, rhs => lhs != rhs
  | equiv, lhs, rhs => lhs == rhs
  | implies, lhs, rhs => !lhs || rhs
  | provided, lhs, rhs => lhs || !rhs

def name : Connective → String
  | and => "And"
  | or => "Or"
  | xor => "Xor"
  | equiv => "Equiv"
  | implies => "Implies"
  | provided => "Provided"

/-- The one sign that stands for the connective in written formulas. -/
def glyph : Connective → String
  | and => "∧"
  | or => "∨"
  | xor => "⊻"
  | equiv => "≡"
  | implies => "⇒"
  | provided => "⇐"

/-- The two connectives that bind weaker than the others. -/
def isLoose : Connective → Bool
  | or | xor => true
  | _ => false

/-- How strongly a connective binds. -/
def strength (op : Connective) : Nat :=
  if op.isLoose then 1 else 2

end Connective

end Propositional
