import Mathlib.Data.List.FinRange
import Mathlib.Data.List.Nodup
import Propositional.Graph
import Propositional.Proofs.Result

/-!
# Variables by number

A variable is determined by its node, and the nodes and variables that numbers name are
those with these numbers.
-/

namespace Propositional.Graph

variable {g : Graph}

theorem Variable.eq_of_id {x y : g.Variable} (h : x.id = y.id) : x = y := by
  obtain ⟨i, label, hi⟩ := x
  obtain ⟨j, label', hj⟩ := y
  obtain rfl : i = j := h
  rw [hi] at hj
  cases hj
  rfl

theorem asVariable?_eq_some {i : g.Id} {x : g.Variable} :
    g.asVariable? i = some x ↔ x.id = i := by
  unfold asVariable?
  constructor
  · intro h
    split at h <;> cases h
    rfl
  · rintro rfl
    split
    next label hi => exact congrArg some (Variable.eq_of_id rfl)
    next hne => exact absurd x.entry_id (hne x.label)

theorem exists_variable {index : Nat} :
    (∃ x : g.Variable, x.id.val = index) ↔ ∃ label, g.nodes[index]? = some (.var label) := by
  constructor
  · rintro ⟨x, rfl⟩
    exact ⟨x.label, (Array.getElem?_eq_getElem x.id.isLt).trans (congrArg some x.entry_id)⟩
  · rintro ⟨label, h⟩
    obtain ⟨hlt, hentry⟩ := Array.getElem?_eq_some_iff.1 h
    exact ⟨⟨⟨index, hlt⟩, label, hentry⟩, rfl⟩

theorem mem_vars (x : g.Variable) : x ∈ g.vars := by
  unfold vars ids
  exact List.mem_filterMap.2 ⟨x.id, List.mem_finRange _, asVariable?_eq_some.2 rfl⟩

theorem nodup_vars (g : Graph) : g.vars.Nodup := by
  refine (List.nodup_finRange g.size).filterMap fun i j x hi hj => ?_
  exact (asVariable?_eq_some.1 hi).symm.trans (asVariable?_eq_some.1 hj)

theorem idAt?_eq_ok {index : Nat} {i : g.Id} : g.idAt? index = .ok i ↔ i.val = index := by
  unfold idAt?
  constructor
  · intro h
    split at h <;> cases h
    rfl
  · rintro rfl
    rw [dif_pos i.isLt]

theorem variableAt?_eq_ok {index : Nat} {x : g.Variable} :
    g.variableAt? index = .ok x ↔ x.id.val = index := by
  unfold variableAt?
  constructor
  · intro h
    obtain ⟨i, hi, h⟩ := bind_eq_ok.1 h
    split at h
    next y hy =>
      cases h
      rw [asVariable?_eq_some.1 hy]
      exact idAt?_eq_ok.1 hi
    next => cases h
  · rintro rfl
    refine bind_eq_ok.2 ⟨x.id, idAt?_eq_ok.2 rfl, ?_⟩
    split
    next y hy => exact congrArg Except.ok (Variable.eq_of_id (asVariable?_eq_some.1 hy))
    next hnone => exact absurd x.entry_id (entry_ne_var hnone x.label)

end Propositional.Graph
