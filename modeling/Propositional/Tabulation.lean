import Propositional.Expression
import Propositional.Table
import Propositional.Table.Rows

/-!
# Tabulation

What to tabulate of an expression: variables and nodes by number, and how many
variables are allowed. A request is checked in a fixed order before any value changes:
the number of variables, then the variables, then the nodes.
-/

namespace Propositional

structure Tabulation where
  vars : List Nat
  nodes : List Nat
  maxVars : Nat := 16
deriving DecidableEq

namespace Expression

/-- All variables, and every compound part of the formula. -/
def tabulation (e : Expression) : Tabulation where
  vars := e.vars.map (·.id.val)
  nodes := e.subexpressions.map (·.val)

end Expression

/-- What the numbers name, or the first number that names nothing. -/
def resolve (name? : Nat → Option α) : List Nat → Except Nat (List α)
  | [] => .ok []
  | i :: indices =>
    match name? i with
    | some a => (resolve name? indices).map (a :: ·)
    | none => .error i

theorem length_of_resolve {name? : Nat → Option α} {indices : List Nat} {as : List α}
    (h : resolve name? indices = .ok as) : as.length = indices.length := by
  fun_induction resolve name? indices generalizing as with
  | case1 =>
    cases h
    rfl
  | case2 i indices a _ ih =>
    cases hr : resolve name? indices with
    | error => simp [hr, Except.map] at h
    | ok =>
      simp only [hr, Except.map, Except.ok.injEq] at h
      rw [← h, List.length_cons, ih hr, List.length_cons]
  | case3 => cases h

namespace Tabulation

/-- The same table over the whole formula only. -/
def rootOnly (t : Tabulation) (e : Expression) : Tabulation :=
  { t with nodes := [e.root.val] }

/-- The greatest number of variables allowed; row numbers have 64 bits. -/
def limit (t : Tabulation) : Nat :=
  min t.maxVars 63

/-- The rows of the table, in front of the first. -/
def rows (t : Tabulation) (e : Expression) : Except Error (Rows e.graph) :=
  if hn : t.limit < t.vars.length then
    .error (.tooManyVariables t.vars.length t.limit)
  else
    match hv : resolve (fun i => (e.graph.variableAt? i).toOption) t.vars with
    | .error i => .error (.input (.notVariable i))
    | .ok vars =>
      match resolve (fun i => (e.graph.idAt? i).toOption) t.nodes with
      | .error i => .error (.input (.foreignNode i))
      | .ok nodes =>
        .ok {
          vars, nodes
          values := e.values
          position := 0
          few := by
            have := length_of_resolve hv
            simp only [limit] at hn
            omega
          position_le := UInt64.zero_le }

/-- The whole table, and the expression with the values that the last row left. -/
def finish (t : Tabulation) (e : Expression) : Except Error Table × Expression :=
  match t.rows e with
  | .error err => (.error err, e)
  | .ok rows =>
    let (result, rest) := rows.collect
    ((result.mapError .evaluation).map fun found =>
        { header := rows.header, rows := found.map (·.map Table.digit) },
      e.withValues rest.values)

end Tabulation

end Propositional
