import Propositional.Error
import Propositional.Proofs.Formula.Parts
import Propositional.Proofs.Result

/-!
# Evaluation of formulas

What a formula comes to under a map that may say nothing about a label. There is a value exactly if
the map says something about every label of the formula, since no connective leaves an operand out;
otherwise the label named is the last one in the formula that the map says nothing about.
-/

namespace Propositional.Formula

/-- The truth value of a formula under a partial map. The operand written after a connective comes
first. -/
def evaluate (m : String → Option Bool) : Formula → Except Unassigned Bool
  | constant b => .ok b
  | var label =>
    match m label with
    | some b => .ok b
    | none => .error ⟨label⟩
  | negation f => (f.evaluate m).map (!·)
  | binary op left right => do
    let after ← right.evaluate m
    let before ← left.evaluate m
    return op.apply after before

/-- The map says something about every label of the formula. -/
def Covers (m : String → Option Bool) (f : Formula) : Prop :=
  ∀ label ∈ f.labels, (m label).isSome

/-- The last of some labels that the map says nothing about. -/
def LastMissing (m : String → Option Bool) (labels : List String) (label : String) : Prop :=
  ∃ before after, labels = before ++ label :: after ∧ m label = none ∧ ∀ l ∈ after, (m l).isSome

variable {m : String → Option Bool} {f left right : Formula} {op : Connective} {label : String}

theorem covers_binary : Covers m (binary op left right) ↔ Covers m left ∧ Covers m right := by
  simp only [Covers, labels, List.mem_append, or_imp, forall_and]

theorem LastMissing.append_left {labels : List String} (h : LastMissing m labels label)
    (others : List String) : LastMissing m (others ++ labels) label := by
  obtain ⟨before, after, rfl, hm, hafter⟩ := h
  exact ⟨others ++ before, after, (List.append_assoc _ _ _).symm, hm, hafter⟩

theorem LastMissing.append_right {labels others : List String} (h : LastMissing m labels label)
    (hothers : ∀ l ∈ others, (m l).isSome) : LastMissing m (labels ++ others) label := by
  obtain ⟨before, after, rfl, hm, hafter⟩ := h
  refine ⟨before, after ++ others, List.append_assoc _ _ _, hm, ?_⟩
  simpa only [List.forall_mem_append] using ⟨hafter, hothers⟩

/-- Only what the map says about the labels of the formula counts. -/
theorem evaluate_congr {m' : String → Option Bool} (h : ∀ label ∈ f.labels, m label = m' label) :
    f.evaluate m = f.evaluate m' := by
  induction f with
  | constant b => rfl
  | var label => rw [evaluate, evaluate, h label List.mem_cons_self]
  | negation f ih => rw [evaluate, evaluate, ih h]
  | binary op left right ihl ihr =>
    obtain ⟨hl, hr⟩ := List.forall_mem_append.1 h
    rw [evaluate, evaluate, ihl hl, ihr hr]

/-- A map that says enough gives the formula its truth value. -/
theorem evaluate_of_covers (h : Covers m f) :
    f.evaluate m = .ok (f.value fun label => (m label).getD false) := by
  induction f with
  | constant b => rfl
  | var label =>
    obtain ⟨b, hb⟩ := Option.isSome_iff_exists.1 (h label List.mem_cons_self)
    simp only [evaluate, value, hb, Option.getD_some]
  | negation f ih =>
    rw [evaluate, ih h]
    rfl
  | binary op left right ihl ihr =>
    obtain ⟨hl, hr⟩ := covers_binary.1 h
    rw [evaluate, ihl hl, ihr hr, value_binary]
    rfl

/-- There is a value as soon as the map says enough, whatever it says, and not before. -/
theorem exists_evaluate_eq_ok : (∃ b, f.evaluate m = .ok b) ↔ Covers m f := by
  induction f with
  | constant b => simp [evaluate, Covers, labels]
  | var label => cases hm : m label <;> simp [evaluate, Covers, labels, hm]
  | negation f ih =>
    have hnot : (∃ b, (negation f).evaluate m = .ok b) ↔ ∃ b, f.evaluate m = .ok b := by
      constructor
      · rintro ⟨b, hb⟩
        obtain ⟨c, hc, -⟩ := map_eq_ok.1 hb
        exact ⟨c, hc⟩
      · rintro ⟨c, hc⟩
        exact ⟨!c, map_eq_ok.2 ⟨c, hc, rfl⟩⟩
    exact hnot.trans ih
  | binary op left right ihl ihr =>
    rw [covers_binary, ← ihl, ← ihr]
    constructor
    · rintro ⟨b, hb⟩
      obtain ⟨after, hafter, hb⟩ := bind_eq_ok.1 hb
      obtain ⟨before, hbefore, -⟩ := bind_eq_ok.1 hb
      exact ⟨⟨before, hbefore⟩, ⟨after, hafter⟩⟩
    · rintro ⟨⟨before, hbefore⟩, ⟨after, hafter⟩⟩
      exact ⟨_, bind_eq_ok.2 ⟨after, hafter, bind_eq_ok.2 ⟨before, hbefore, rfl⟩⟩⟩

/-- An evaluation that fails names the last label that is missing. -/
theorem lastMissing_of_evaluate {cause : Unassigned} (h : f.evaluate m = .error cause) :
    LastMissing m f.labels cause.label := by
  induction f with
  | constant b => cases h
  | var label =>
    cases hm : m label with
    | some b => simp [evaluate, hm] at h
    | none =>
      obtain rfl : ⟨label⟩ = cause := by simpa [evaluate, hm] using h
      exact ⟨[], [], rfl, hm, nofun⟩
  | negation f ih => exact ih (map_eq_error.1 h)
  | binary op left right ihl ihr =>
    rcases bind_eq_error.1 h with hright | ⟨after, hright, h⟩
    · exact (ihr hright).append_left _
    · -- the operand written after the connective has a value, so nothing is missing there
      rcases bind_eq_error.1 h with hleft | ⟨before, _, h⟩
      · exact (ihl hleft).append_right (exists_evaluate_eq_ok.1 ⟨after, hright⟩)
      · cases h

end Propositional.Formula
