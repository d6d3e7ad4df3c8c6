import Propositional.Proofs.Assignment.LastValue
import Propositional.Proofs.Expression.Runs
import Propositional.Proofs.Expression.Structure

/-!
# Assigning

The value of an expression after its variables have been assigned by label. It is the truth value
of the formula as soon as every label of the formula is among those assigned, in whatever order
and however often, and never with another value.
-/

namespace Propositional

/-- A list of assignments says what `ρ` says about the labels of a formula. -/
structure Settles (as : List Assignment) (f : Formula) (ρ : String → Bool) : Prop where
  listed : ∀ label ∈ f.labels, ⟨label, ρ label⟩ ∈ as
  values : ∀ a ∈ as, a.label ∈ f.labels → a.value = ρ a.label

theorem settles_map (f : Formula) (ρ : String → Bool) :
    Settles ((Expression.ofFormula f).labels.map fun label => ⟨label, ρ label⟩) f ρ where
  listed _ hl := List.mem_map_of_mem (Expression.mem_labels_ofFormula.2 hl)
  values a ha _ := by
    obtain ⟨label, _, rfl⟩ := List.mem_map.1 ha
    rfl

theorem settles_of_labels {as : List Assignment} {f : Formula} {ρ : String → Bool}
    (hlisted : ∀ label ∈ (Expression.ofFormula f).labels, ⟨label, ρ label⟩ ∈ as)
    (hvalues : ∀ a ∈ as, a.label ∈ (Expression.ofFormula f).labels → a.value = ρ a.label) :
    Settles as f ρ := by
  simp only [Expression.mem_labels_ofFormula] at hlisted hvalues
  exact ⟨hlisted, hvalues⟩

/-- The assignments as actions. -/
def actionsOf (as : List Assignment) : List Action :=
  as.map fun a => .assign a.label a.value

theorem fits_actionsOf (g : Graph) (as : List Assignment) :
    ∀ action ∈ actionsOf as, action.Fits g := by
  intro action h
  obtain ⟨a, _, rfl⟩ := List.mem_map.1 h
  exact trivial

/-- A label is recorded with the value that it is assigned last, or else with what it had before. -/
theorem Graph.foldl_record_actionsOf (g : Graph) (as : List Assignment)
    (m : String → Option Bool) (label : String) :
    (actionsOf as).foldl g.record m label = (Assignment.lastValue? as label).or (m label) := by
  induction as generalizing m with
  | nil => rfl
  | cons a as ih =>
    have hrecord : g.record m (.assign a.label a.value) label =
        (Assignment.lastValue? [a] label).or (m label) := by
      rw [Assignment.lastValue?_singleton, record, note]
      by_cases hlabel : label = a.label
      · rw [if_pos hlabel, if_pos hlabel.symm, Option.some_or]
      · rw [if_neg hlabel, if_neg (Ne.symm hlabel), Option.none_or]
    have hfold := ih (g.record m (.assign a.label a.value))
    rw [hrecord, ← Option.or_assoc, ← Assignment.lastValue?_append] at hfold
    exact hfold

/-- What was settled is what was assigned last. -/
theorem Settles.lastValue?_eq {as : List Assignment} {f : Formula} {ρ : String → Bool}
    (h : Settles as f ρ) {label : String} (hl : label ∈ f.labels) :
    Assignment.lastValue? as label = some (ρ label) := by
  obtain ⟨b, hb⟩ := Option.isSome_iff_exists.1
    (Assignment.isSome_lastValue?.2 ⟨_, h.listed label hl, rfl⟩)
  have hvalue : b = ρ label := h.values _ (Assignment.mem_of_lastValue? hb) hl
  rw [hb, hvalue]

namespace Expression

theorem label_mem_labels {f : Formula} (x : (ofFormula f).graph.Variable) : x.label ∈ f.labels :=
  mem_labels_ofFormula.1 (List.mem_map_of_mem (Graph.mem_vars x))

/-- After assignments every variable holds what its label was assigned last. -/
theorem run_actionsOf_agrees (f : Formula) (as : List Assignment) :
    ∃ v, (ofFormula f).run (actionsOf as) = .ok ((ofFormula f).withValues v) ∧
      Agrees v (Assignment.lastValue? as) := by
  obtain ⟨v, hrun, hv⟩ := run_agrees (distinct_ofFormula f) (agrees_unset _) (fits_actionsOf _ as)
  refine ⟨v, hrun, fun x => (hv x).trans ?_⟩
  rw [Graph.foldl_record_actionsOf, Option.or_none]

/-- Where assignments settle all labels, the expression has the truth value of its formula. -/
theorem value_of_settles {f : Formula} {ρ : String → Bool} {as : List Assignment}
    (h : Settles as f ρ) :
    ∃ v, (ofFormula f).run (actionsOf as) = .ok ((ofFormula f).withValues v) ∧
      ((ofFormula f).withValues v).value = .ok (f.value ρ) := by
  obtain ⟨v, hrun, hv⟩ := run_actionsOf_agrees f as
  have hset : ∀ x : (ofFormula f).graph.Variable, (v.get x.id).isSome := by
    intro x
    rw [hv x, h.lastValue?_eq (label_mem_labels x)]
    rfl
  have hvalue := (hv.evaluate_eq (unfolds_root f) fun x _ => hset x).2
  refine ⟨v, hrun, hvalue.trans (congrArg Except.ok (Formula.value_congr fun label hl => ?_))⟩
  rw [h.lastValue?_eq hl]
  rfl

end Expression

end Propositional
