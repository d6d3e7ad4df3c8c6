import Propositional.Text.Ranges

/-!
# Character classes

Classes that are given by ranges of code points are compared range by range.
-/

namespace Propositional.Text

variable {rs rs' : List (Nat × Nat)} {c : Char}

theorem inRanges_iff : inRanges rs c ↔ ∃ r ∈ rs, r.1 ≤ c.toNat ∧ c.toNat ≤ r.2 := by
  simp only [inRanges, List.any_eq_true, Bool.and_eq_true, decide_eq_true_eq]

/-- Character classes are disjoint if no range of the one meets a range of the other. -/
theorem disjoint_of_ranges (h : ∀ r ∈ rs, ∀ r' ∈ rs', r.2 < r'.1 ∨ r'.2 < r.1)
    (hc : inRanges rs c) : inRanges rs' c = false := by
  obtain ⟨r, hr, hlo, hhi⟩ := inRanges_iff.1 hc
  refine Bool.eq_false_iff.2 fun hc' => ?_
  obtain ⟨r', hr', hlo', hhi'⟩ := inRanges_iff.1 hc'
  have := h r hr r' hr'
  omega

end Propositional.Text
