/-!
# Splitting

The pieces of a list between separators.
-/

namespace Propositional

variable {α : Type} [BEq α] [LawfulBEq α] {a : α} {xs piece : List α}

/-- No piece contains the separator. -/
theorem not_mem_of_mem_splitOn (h : piece ∈ xs.splitOn a) : a ∉ piece := by
  induction xs generalizing piece with
  | nil => simp_all
  | cons c xs ih =>
    rw [List.splitOn_cons_eq_if_modifyHead] at h
    split at h
    next =>
      rcases List.mem_cons.1 h with rfl | h
      · exact List.not_mem_nil
      · exact ih h
    next hne =>
      have hne : a ≠ c := fun heq => hne (beq_iff_eq.2 heq.symm)
      obtain ⟨first, rest, hsplit⟩ := List.exists_cons_of_ne_nil (List.splitOn_ne_nil a xs)
      rw [hsplit] at h ih
      rcases List.mem_cons.1 h with rfl | h
      · exact List.not_mem_cons_of_ne_of_not_mem hne (ih List.mem_cons_self)
      · exact ih (List.mem_cons_of_mem _ h)

/-- Two pieces are what stands on the two sides of the only separator. -/
theorem splitOn_eq_pair_iff {left right : List α} :
    xs.splitOn a = [left, right] ↔ xs = left ++ a :: right ∧ a ∉ left ∧ a ∉ right := by
  constructor
  · intro h
    have hpieces : ∀ piece ∈ [left, right], a ∉ piece := fun piece hpiece =>
      not_mem_of_mem_splitOn (h ▸ hpiece)
    have hxs : [a].intercalate (xs.splitOn a) = xs := List.intercalate_splitOn a
    rw [h] at hxs
    exact ⟨by simpa using hxs.symm, hpieces left (by simp), hpieces right (by simp)⟩
  · rintro ⟨rfl, hleft, hright⟩
    rw [List.splitOn_append_cons_self_of_not_mem hleft, List.splitOn_eq_singleton hright]

theorem count_eq_one_iff :
    xs.count a = 1 ↔ ∃ left right, xs = left ++ a :: right ∧ a ∉ left ∧ a ∉ right := by
  constructor
  · intro h
    have hmem : a ∈ xs := List.count_pos_iff.1 (by omega)
    obtain ⟨left, right, rfl, hleft⟩ := List.eq_append_cons_of_mem hmem
    refine ⟨left, right, rfl, hleft, List.count_eq_zero.1 ?_⟩
    rw [List.count_append, List.count_cons_self, List.count_eq_zero.2 hleft] at h
    omega
  · rintro ⟨left, right, rfl, hleft, hright⟩
    rw [List.count_append, List.count_cons_self, List.count_eq_zero.2 hleft,
      List.count_eq_zero.2 hright]

/-! ## Splitting what a list is encoded by -/

section

variable {β : Type} [BEq β] [LawfulBEq β] {b : β} {f : α → List β}

omit [BEq α] [LawfulBEq α] [BEq β] [LawfulBEq β] in
theorem flatMap_intercalate (sep : List α) (pieces : List (List α)) (f : α → List β) :
    (sep.intercalate pieces).flatMap f =
      (sep.flatMap f).intercalate (pieces.map (·.flatMap f)) := by
  induction pieces with
  | nil => rfl
  | cons piece pieces ih =>
    cases pieces with
    | nil => simp
    | cons next pieces =>
      rw [List.intercalate_cons_cons, List.flatMap_append, List.flatMap_append, ih]
      simp only [List.map_cons, List.intercalate_cons_cons]

/-- An encoding that keeps the separator apart splits where the list does. -/
theorem splitOn_flatMap (ha : f a = [b]) (hne : ∀ c, b ∈ f c → c = a) (xs : List α) :
    (xs.flatMap f).splitOn b = (xs.splitOn a).map (·.flatMap f) := by
  have hpieces : ∀ piece ∈ (xs.splitOn a).map (·.flatMap f), b ∉ piece := by
    intro piece hpiece hb
    obtain ⟨inner, hinner, rfl⟩ := List.mem_map.1 hpiece
    obtain ⟨c, hc, hb⟩ := List.mem_flatMap.1 hb
    exact not_mem_of_mem_splitOn hinner (hne c hb ▸ hc)
  have hxs : xs.flatMap f = [b].intercalate ((xs.splitOn a).map (·.flatMap f)) := by
    rw [← ha, ← List.flatMap_singleton f a, ← flatMap_intercalate, List.intercalate_splitOn]
  rw [hxs]
  exact List.splitOn_intercalate b hpieces (by simp)

end

end Propositional
