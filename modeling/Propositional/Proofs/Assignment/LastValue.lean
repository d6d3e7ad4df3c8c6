import Mathlib.Data.List.Nodup
import Mathlib.Logic.Relation
import Propositional.Assignment

/-!
# Last values

What a list of assignments says about a label: the value that it gives the label last. Entries that
say nothing about some labels, because they are for others or because a later entry is for the same
label, can be left out as far as these labels go, and entries for different labels come in any
order.
-/

namespace Propositional

namespace Assignment

/-- The value of the last assignment to a label. -/
def lastValue? (as : List Assignment) (label : String) : Option Bool :=
  (as.reverse.find? (·.label = label)).map (·.value)

/-- A list of assignments changes in a way that makes no difference to some labels: it loses an
assignment to another label, or one that a later assignment overrides, or assignments to different
labels that follow one another come in another order. -/
inductive Adjusts (labels : List String) : List Assignment → List Assignment → Prop where
  | absent {before a after} :
      a.label ∉ labels →
      Adjusts labels (before ++ a :: after) (before ++ after)
  | overridden {before a after} :
      (∃ b ∈ after, b.label = a.label) →
      Adjusts labels (before ++ a :: after) (before ++ after)
  | permuted {before block block' after} :
      block.Perm block' → (block.map (·.label)).Nodup →
      Adjusts labels (before ++ block ++ after) (before ++ block' ++ after)

variable {as as' before after : List Assignment} {a : Assignment} {label : String}
  {labels : List String}

theorem lastValue?_append (as as' : List Assignment) (label : String) :
    lastValue? (as ++ as') label = (lastValue? as' label).or (lastValue? as label) := by
  rw [lastValue?, List.reverse_append, List.find?_append, Option.map_or]
  rfl

theorem lastValue?_singleton :
    lastValue? [a] label = if a.label = label then some a.value else none := by
  by_cases h : a.label = label <;> simp [lastValue?, h]

theorem isSome_lastValue? : (lastValue? as label).isSome ↔ ∃ a ∈ as, a.label = label := by
  simp [lastValue?, List.find?_isSome]

theorem lastValue?_eq_none : lastValue? as label = none ↔ ∀ a ∈ as, a.label ≠ label := by
  simp [lastValue?]

theorem mem_of_lastValue? {b : Bool} (h : lastValue? as label = some b) : ⟨label, b⟩ ∈ as := by
  obtain ⟨a, ha, rfl⟩ := Option.map_eq_some_iff.1 h
  obtain rfl : a.label = label := by simpa using List.find?_some ha
  exact List.mem_reverse.1 (List.mem_of_find?_eq_some ha)

/-- Where no label is assigned twice every assignment is the last one to its label. -/
theorem lastValue?_eq_some_iff (h : (as.map (·.label)).Nodup) {b : Bool} :
    lastValue? as label = some b ↔ ⟨label, b⟩ ∈ as := by
  refine ⟨mem_of_lastValue?, fun hmem => ?_⟩
  obtain ⟨c, hc⟩ := Option.isSome_iff_exists.1 (isSome_lastValue?.2 ⟨_, hmem, rfl⟩)
  have heq := List.inj_on_of_nodup_map h (mem_of_lastValue? hc) hmem rfl
  rw [hc, (Assignment.mk.inj heq).2]

theorem lastValue?_of_perm (h : as.Perm as') (hd : (as.map (·.label)).Nodup) (label : String) :
    lastValue? as' label = lastValue? as label := by
  refine Option.ext fun b => ?_
  have hd' : (as'.map (·.label)).Nodup := (h.map _).nodup_iff.1 hd
  rw [lastValue?_eq_some_iff hd, lastValue?_eq_some_iff hd', h.mem_iff]

/-! ## Changes that make no difference -/

/-- An assignment counts for its label only, and only if no later one does. -/
theorem lastValue?_append_cons (h : a.label ≠ label ∨ (lastValue? after label).isSome) :
    lastValue? (before ++ a :: after) label = lastValue? (before ++ after) label := by
  rw [List.append_cons, List.append_assoc, lastValue?_append, lastValue?_append [a],
    lastValue?_append, lastValue?_singleton]
  rcases h with h | h
  · rw [if_neg h, Option.or_none]
  · obtain ⟨b, hb⟩ := Option.isSome_iff_exists.1 h
    rw [hb, Option.some_or, Option.some_or]

theorem Adjusts.lastValue?_eq (h : Adjusts labels as as') (hl : label ∈ labels) :
    lastValue? as' label = lastValue? as label := by
  cases h with
  | absent ha =>
    refine (lastValue?_append_cons (.inl ?_)).symm
    rintro rfl
    exact ha hl
  | @overridden before a after ha =>
    by_cases hlabel : a.label = label
    · rw [hlabel] at ha
      exact (lastValue?_append_cons (.inr (isSome_lastValue?.2 ha))).symm
    · exact (lastValue?_append_cons (.inl hlabel)).symm
  | permuted hperm hd =>
    simp only [lastValue?_append, lastValue?_of_perm hperm hd]

theorem lastValue?_of_eqvGen (h : Relation.EqvGen (Adjusts labels) as as') (hl : label ∈ labels) :
    lastValue? as' label = lastValue? as label := by
  induction h with
  | rel _ _ h => exact h.lastValue?_eq hl
  | refl _ => rfl
  | symm _ _ _ ih => exact ih.symm
  | trans _ _ _ _ _ ih ih' => exact ih'.trans ih

end Assignment

end Propositional
