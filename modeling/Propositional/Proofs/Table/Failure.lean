import Propositional.Proofs.Network.Demand
import Propositional.Proofs.Table.Iteration

/-!
# Failing rows

Whether a row fails does not depend on its number. Every row gives values to the same variables
before the nodes are evaluated, and an evaluation asks for the same variables whatever they hold;
so all rows fail or none, and all of them with the first variable that is asked for in vain.
-/

namespace Propositional

namespace Rows

variable {g : Graph} {rows : Rows g} {x : g.Variable} {r : Nat}

/-- The first variable that the nodes ask for, one after the other, and that has no value in any
row. -/
def missing? (rows : Rows g) : Option g.Variable :=
  (rows.nodes.flatMap g.demand).find? fun x => x ∉ rows.vars ∧ rows.values.get x.id = none

theorem firstUnset_assign (rows : Rows g) (r : UInt64) :
    (rows.assign r).firstUnset (rows.nodes.flatMap g.demand) = rows.missing? := by
  unfold Valuation.firstUnset missing?
  congr 1
  funext x
  rw [Bool.eq_iff_iff, Option.isNone_iff_eq_none, decide_eq_true_iff]
  exact get_assign_eq_none

theorem isSome_missing? :
    rows.missing?.isSome ↔ ∃ i ∈ rows.nodes, ∃ x : g.Variable, g.Reaches i x.id ∧
      x ∉ rows.vars ∧ rows.values.get x.id = none := by
  simp only [missing?, List.find?_isSome, List.mem_flatMap, Graph.mem_demand, decide_eq_true_iff]
  constructor
  · rintro ⟨x, ⟨i, hi, hx⟩, hmissing⟩
    exact ⟨i, hi, x, hx, hmissing⟩
  · rintro ⟨i, hi, x, hx, hmissing⟩
    exact ⟨x, ⟨i, hi, hx⟩, hmissing⟩

theorem rowAt_of_missing?_none (h : rows.missing? = none) (r : Nat) :
    ∃ row, rows.rowAt r = .ok row := by
  rw [← rows.firstUnset_assign r.toUInt64] at h
  obtain ⟨bs, hbs⟩ := Graph.mapM_evaluate_of_firstUnset_none h
  refine ⟨rowBits r.toUInt64 rows.vars.length ++ bs, ?_⟩
  rw [rowAt, row, hbs]
  rfl

theorem rowAt_of_missing?_some (h : rows.missing? = some x) (r : Nat) :
    rows.rowAt r = .error ⟨x.label⟩ := by
  rw [← rows.firstUnset_assign r.toUInt64] at h
  rw [rowAt, row, Graph.mapM_evaluate_of_firstUnset_some h]
  rfl

/-! ## All rows -/

/-- All rows that are left, those that fail included. -/
def all (rows : Rows g) : List (Except Unassigned Row) :=
  (rows.fold Array.push #[]).1.toList

theorem Taken.all {start : Rows g} {c : Nat} (h : Taken start c rows) :
    rows.all = (List.range' c (2 ^ start.vars.length - c)).map start.rowAt := by
  obtain ⟨rows', hfold, _⟩ :=
    h.fold (f := Array.push) (b := #[]) (Nat.add_sub_cancel' h.le)
  rw [Rows.all, hfold]
  simp

theorem all_of_start (h : rows.position = 0) :
    rows.all = (List.range (2 ^ rows.vars.length)).map rows.rowAt := by
  rw [(taken_zero h).all, List.range_eq_range', Nat.sub_zero]

theorem collect_of_missing?_none (h : rows.position = 0) (hm : rows.missing? = none) :
    ∃ found, rows.collect.1 = .ok found ∧ found.length = 2 ^ rows.vars.length := by
  obtain ⟨found, hfound, hlength⟩ : ∃ found,
      (List.range (2 ^ rows.vars.length)).mapM rows.rowAt = .ok found ∧
        found.length = (List.range (2 ^ rows.vars.length)).length :=
    exists_mapM_eq_ok fun r _ => rowAt_of_missing?_none hm r
  rw [collect_of_start h]
  exact ⟨found, hfound, hlength.trans List.length_range⟩

theorem collect_of_missing?_some (h : rows.position = 0) (hm : rows.missing? = some x) :
    rows.collect.1 = .error ⟨x.label⟩ := by
  have hne : List.range (2 ^ rows.vars.length) ≠ [] := by simp
  rw [collect_of_start h]
  exact mapM_eq_error hne fun r _ => rowAt_of_missing?_some hm r

end Rows

/-! ## Tables -/

namespace Tabulation

variable {t : Tabulation} {e : Expression} {rows : Rows e.graph}

theorem mem_vars_of_rows (h : t.rows e = .ok rows) {x : e.graph.Variable} :
    x ∈ rows.vars ↔ x.id.val ∈ t.vars := by
  rw [← (rows_eq_ok h).1, List.mem_map]
  constructor
  · exact fun hx => ⟨x, hx, rfl⟩
  · rintro ⟨y, hy, hid⟩
    rwa [← Graph.Variable.eq_of_id (Fin.ext hid)]

theorem missing?_of_rows (h : t.rows e = .ok rows) :
    rows.missing? = (rows.nodes.flatMap e.graph.demand).find? fun x =>
      x.id.val ∉ t.vars ∧ e.values.get x.id = none := by
  unfold Rows.missing?
  simp only [mem_vars_of_rows h, (rows_eq_ok h).2.2.1]

theorem finish_of_missing?_none (h : t.rows e = .ok rows) (hm : rows.missing? = none) :
    ∃ table, (t.finish e).1 = .ok table ∧ table.rows.length = 2 ^ t.vars.length := by
  obtain ⟨found, hfound, hlength⟩ := Rows.collect_of_missing?_none (rows_eq_ok h).2.2.2 hm
  have hfinish := finish_eq h
  rw [hfound] at hfinish
  refine ⟨_, hfinish, ?_⟩
  rw [List.length_map, hlength, length_vars_of_rows h]

theorem finish_of_missing?_some (h : t.rows e = .ok rows) {x : e.graph.Variable}
    (hm : rows.missing? = some x) : (t.finish e).1 = .error (.evaluation ⟨x.label⟩) := by
  rw [finish_eq h, Rows.collect_of_missing?_some (rows_eq_ok h).2.2.2 hm]
  rfl

/-- Either all rows of a request that is accepted fail, with the same error, or none does. They fail
if a node reaches a variable that is not listed and holds no value, and the error names the first
such variable in the order in which the nodes, one after the other, ask for their variables. So
there is a table with all rows unless the first one fails. -/
theorem finish_uniform (h : t.rows e = .ok rows) :
    let missing := (rows.nodes.flatMap e.graph.demand).find? fun x =>
      x.id.val ∉ t.vars ∧ e.values.get x.id = none
    rows.nodes.map (·.val) = t.nodes ∧ rows.all.length = 2 ^ t.vars.length ∧
    (missing.isSome ↔ ∃ i ∈ rows.nodes, ∃ x : e.graph.Variable, e.graph.Reaches i x.id ∧
      x.id.val ∉ t.vars ∧ e.values.get x.id = none) ∧
    (missing = none → (∀ item ∈ rows.all, ∃ row, item = .ok row) ∧
      ∃ table, (t.finish e).1 = .ok table ∧ table.rows.length = 2 ^ t.vars.length) ∧
    (∀ x, missing = some x → (∀ item ∈ rows.all, item = .error ⟨x.label⟩) ∧
      (t.finish e).1 = .error (.evaluation ⟨x.label⟩)) ∧
    ((∃ error, (t.finish e).1 = .error error) ↔ ∃ cause, rows.all.head? = some (.error cause)) := by
  intro missing
  obtain ⟨_, hnodes, hvalues, hposition⟩ := rows_eq_ok h
  have hall := Rows.all_of_start hposition
  have hmissing : missing = rows.missing? := (missing?_of_rows h).symm
  rw [hmissing]
  refine ⟨hnodes, ?_, ?_, ?_, ?_, ?_⟩
  · rw [hall, List.length_map, List.length_range, length_vars_of_rows h]
  · rw [Rows.isSome_missing?]
    simp only [mem_vars_of_rows h, hvalues]
  · intro hm
    refine ⟨?_, finish_of_missing?_none h hm⟩
    rw [hall, List.forall_mem_map]
    exact fun r _ => Rows.rowAt_of_missing?_none hm r
  · intro x hm
    refine ⟨?_, finish_of_missing?_some h hm⟩
    rw [hall, List.forall_mem_map]
    exact fun r _ => Rows.rowAt_of_missing?_some hm r
  · have hhead : rows.all.head? = some (rows.rowAt 0) := by
      rw [hall, List.head?_map, List.head?_range, if_neg (Nat.two_pow_pos _).ne']
      rfl
    rw [hhead]
    cases hm : rows.missing? with
    | none =>
      obtain ⟨table, hfinish, _⟩ := finish_of_missing?_none h hm
      obtain ⟨row, hrow⟩ := Rows.rowAt_of_missing?_none hm 0
      simp [hfinish, hrow]
    | some x => simp [finish_of_missing?_some h hm, Rows.rowAt_of_missing?_some hm 0]

/-- Neither `B` nor `C` holds a value, and the operand written last is asked for first. -/
theorem finish_uniform_unset :
    let e := Expression.ofFormula (.binary .implies (.var "A") (.binary .and (.var "B") (.var "C")))
    let t : Tabulation := { vars := [0], nodes := [0, e.root.val] }
    ∃ rows, t.rows e = .ok rows ∧ rows.all.length = 2 ∧
      (∀ item ∈ rows.all, item = .error ⟨"C"⟩) ∧
      (t.finish e).1 = .error (.evaluation ⟨"C"⟩) := by
  intro e t
  have hlabel : (t.rows e).toOption.map (fun rows =>
      ((rows.nodes.flatMap e.graph.demand).find? fun x =>
        x.id.val ∉ t.vars ∧ e.values.get x.id = none).map (·.label)) = some (some "C") := by
    decide +kernel
  obtain ⟨rows, hsome, hfirst⟩ := Option.map_eq_some_iff.1 hlabel
  obtain ⟨x, hmissing, hx⟩ := Option.map_eq_some_iff.1 hfirst
  have hrows : t.rows e = .ok rows := toOption_eq_some.1 hsome
  obtain ⟨_, hlength, _, _, herror, _⟩ := finish_uniform hrows
  obtain ⟨hall, hfinish⟩ := herror x hmissing
  rw [hx] at hall hfinish
  exact ⟨rows, hrows, hlength, hall, hfinish⟩

end Tabulation

end Propositional
