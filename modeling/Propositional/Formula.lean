import Propositional.Connective

/-!
# Formulas

Propositional formulas as they are read, operands in the order in which they are
written, and what a formula means under an assignment of truth values to labels.
-/

namespace Propositional

inductive Formula where
  | constant (value : Bool)
  | var (label : String)
  | negation (operand : Formula)
  | binary (op : Connective) (left right : Formula)
deriving DecidableEq

namespace Formula

/-- The truth value of a formula, with the operands of a connective as they are written. An arrow
points to the operand that may not be true without the other. -/
def value (env : String → Bool) : Formula → Bool
  | constant b => b
  | var label => env label
  | negation f => !f.value env
  | binary .and left right => left.value env && right.value env
  | binary .or left right => left.value env || right.value env
  | binary .xor left right => left.value env != right.value env
  | binary .equiv left right => left.value env == right.value env
  | binary .implies left right => left.value env || !right.value env
  | binary .provided left right => !left.value env || right.value env

/-- A connective takes the operand written after it first. -/
theorem value_binary (env : String → Bool) (op : Connective) (left right : Formula) :
    (binary op left right).value env = op.apply (right.value env) (left.value env) := by
  cases op with
  | and => exact Bool.and_comm _ _
  | or | implies | provided => exact Bool.or_comm _ _
  | xor => exact bne_comm
  | equiv => exact BEq.comm

/-- The labels of a formula from left to right, with repetitions. -/
def labels : Formula → List String
  | constant _ => []
  | var label => [label]
  | negation f => f.labels
  | binary _ left right => left.labels ++ right.labels

def isLeaf : Formula → Bool
  | constant _ | var _ => true
  | negation _ | binary _ _ _ => false

-- ---------------------------------------------------------------------------
-- Written form
-- ---------------------------------------------------------------------------

/-- How strongly the outermost operation of a formula binds. -/
def strength : Formula → Nat
  | binary op _ _ => op.strength
  | _ => 3

def parenthesize (wrap : Bool) (text : String) : String :=
  if wrap then "(" ++ text ++ ")" else text

/-- The written form of a formula. Chains group to the right, so an operand of the same
strength needs parentheses on the left only; a negation applies to an atom or to
something in parentheses. -/
def render : Formula → String
  | constant b => if b then "1" else "0"
  | var label => label
  | negation f => "~" ++ parenthesize (!f.isLeaf) f.render
  | binary op left right =>
    parenthesize (left.strength ≤ op.strength) left.render ++ " " ++ op.glyph ++ " " ++
      parenthesize (right.strength < op.strength) right.render

end Formula

end Propositional
