import Propositional.Formula

/-!
# Parts of formulas

What occurs in a formula: its compound parts in the order in which the formula is put together,
how many places are not variables, and the relation of being a part. The truth value of a
formula depends on its labels only.
-/

namespace Propositional.Formula

/-- The negations and connectives in a formula, an entry for each place where one occurs, after
the entries for all places within it. -/
def compounds : Formula → List Formula
  | constant _ | var _ => []
  | negation f => f.compounds ++ [negation f]
  | binary op left right => left.compounds ++ right.compounds ++ [binary op left right]

/-- How many constants, negations and connectives occur in a formula. -/
def operations : Formula → Nat
  | constant _ => 1
  | var _ => 0
  | negation f => f.operations + 1
  | binary _ left right => left.operations + right.operations + 1

theorem value_congr {f : Formula} {ρ σ : String → Bool}
    (h : ∀ label ∈ f.labels, ρ label = σ label) : f.value ρ = f.value σ := by
  induction f with
  | constant => rfl
  | var label => exact h label List.mem_cons_self
  | negation f ih => rw [value, value, ih h]
  | binary op left right ihl ihr =>
    rw [value_binary, value_binary, ihl fun label hl => h label (List.mem_append_left _ hl),
      ihr fun label hl => h label (List.mem_append_right _ hl)]

/-- `Part g f`: the formula `g` is `f` or occurs in it. -/
inductive Part : Formula → Formula → Prop where
  | refl {f} : Part f f
  | negation {g f} : Part g f → Part g (.negation f)
  | left {g op f f'} : Part g f → Part g (.binary op f f')
  | right {g op f f'} : Part g f' → Part g (.binary op f f')

theorem Part.trans {f g h : Formula} (hfg : Part f g) (hgh : Part g h) : Part f h := by
  induction hgh with
  | refl => exact hfg
  | negation _ ih => exact .negation ih
  | left _ ih => exact .left ih
  | right _ ih => exact .right ih

theorem Part.labels_subset {f g : Formula} (h : Part g f) : g.labels ⊆ f.labels := by
  induction h with
  | refl => exact List.Subset.refl _
  | negation _ ih => exact ih
  | left _ ih => exact List.subset_append_of_subset_left _ ih
  | right _ ih => exact List.subset_append_of_subset_right _ ih

end Propositional.Formula
