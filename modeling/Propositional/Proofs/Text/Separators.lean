import Mathlib.Data.List.Infix

/-!
# Separators of three characters

Pieces with a mark between them that has the same character on both sides. As no piece contains the
mark, the separators start nowhere but where one piece ends, which the lengths of the pieces tell,
and the pieces are found again.
-/

namespace Propositional

namespace Text

/-- The separator starts at a position of the text. -/
def StartsAt (sep text : List Char) (p : Nat) : Prop :=
  sep <+: text.drop p

instance (sep text : List Char) (p : Nat) : Decidable (StartsAt sep text p) :=
  inferInstanceAs (Decidable (sep <+: text.drop p))

/-- What stands between separators, taken one after the other from the left. -/
def pieces (sep : List Char) : List Char → List (List Char)
  | [] => [[]]
  | c :: text =>
    if sep <+: c :: text then [] :: pieces sep (text.drop (sep.length - 1))
    else (pieces sep text).modifyHead (c :: ·)
termination_by text => text.length
decreasing_by all_goals grind

/-- A mark between two equal characters. -/
def joint (a mark : Char) : List Char :=
  [a, mark, a]

/-- How many characters pieces of these lengths and the separators between them take. -/
def span : List Nat → Nat
  | [] => 0
  | [w] => w
  | w :: next :: widths => w + 3 + span (next :: widths)

/-- Where separators start between pieces of these lengths. -/
def cuts : List Nat → List Nat
  | [] | [_] => []
  | w :: next :: widths => w :: (cuts (next :: widths)).map (w + 3 + ·)

variable {sep text part rest : List Char} {parts : List (List Char)} {a c mark : Char} {p : Nat}

/-! ## Pieces -/

theorem pieces_of_not_startsAt (h : ∀ p, ¬ StartsAt sep text p) : pieces sep text = [text] := by
  induction text with
  | nil => rw [pieces]
  | cons c text ih =>
    have hstart : ¬ sep <+: c :: text := h 0
    rw [pieces, if_neg hstart, ih fun p => h (p + 1)]
    rfl

/-- A piece ends at the first separator. -/
theorem pieces_append (hsep : sep ≠ [])
    (h : ∀ p < part.length, ¬ StartsAt sep (part ++ sep ++ rest) p) :
    pieces sep (part ++ sep ++ rest) = part :: pieces sep rest := by
  induction part with
  | nil =>
    obtain ⟨c, sep, rfl⟩ := List.exists_cons_of_ne_nil hsep
    have hstart : c :: sep <+: c :: (sep ++ rest) := List.prefix_append _ _
    rw [List.nil_append, List.cons_append, pieces, if_pos hstart]
    simp
  | cons c part ih =>
    have hstart : ¬ sep <+: c :: (part ++ sep ++ rest) := h 0 (Nat.succ_pos _)
    have hpart : pieces sep (part ++ sep ++ rest) = part :: pieces sep rest :=
      ih fun p hp => h (p + 1) (Nat.succ_lt_succ hp)
    rw [List.cons_append, List.cons_append, pieces, if_neg hstart, hpart]
    rfl

/-! ## Where joints start -/

theorem startsAt_append_left (before : List Char) {q : Nat} :
    StartsAt sep (before ++ rest) (before.length + q) ↔ StartsAt sep rest q := by
  rw [StartsAt, List.drop_length_add_append, StartsAt]

/-- Where a joint starts, the mark is one place further. -/
theorem getElem?_of_startsAt (h : StartsAt (joint a mark) text p) : text[p + 1]? = some mark := by
  obtain ⟨after, hafter⟩ := h
  have hdrop : text[p + 1]? = (text.drop p)[1]? := List.getElem?_drop.symm
  rw [hdrop, ← hafter]
  rfl

theorem not_startsAt_of_not_mem (h : mark ∉ text) : ¬ StartsAt (joint a mark) text p :=
  fun hstart => h (List.mem_of_getElem? (getElem?_of_startsAt hstart))

/-- After a piece without mark the first joint is the one that ends it. -/
theorem startsAt_append (hmark : mark ≠ a) (hpart : mark ∉ part) (hrest : mark ∉ rest.head?) :
    StartsAt (joint a mark) (part ++ joint a mark ++ rest) p ↔
      p = part.length ∨ ∃ q, p = part.length + 3 + q ∧ StartsAt (joint a mark) rest q := by
  have hlength : (part ++ joint a mark).length = part.length + 3 := by simp [joint]
  have hzero : rest[0]? ≠ some mark := by rwa [← List.head?_eq_getElem?]
  constructor
  · intro hstart
    have hmarked := getElem?_of_startsAt hstart
    rcases Nat.lt_or_ge p (part.length + 3) with hp | hp
    · refine .inl ?_
      -- up to the start of what follows the only mark is the one in the middle of the joint
      grind [joint]
    · obtain ⟨q, rfl⟩ := Nat.exists_eq_add_of_le hp
      rw [← hlength, startsAt_append_left] at hstart
      exact .inr ⟨q, rfl, hstart⟩
  · rintro (rfl | ⟨q, rfl, hq⟩)
    · have hfirst : StartsAt (joint a mark) (joint a mark ++ rest) 0 := List.prefix_append _ _
      rw [List.append_assoc]
      exact (startsAt_append_left part).2 hfirst
    · rw [← hlength]
      exact (startsAt_append_left _).2 hq

/-! ## Joined pieces -/

/-- What begins with the first piece or, where this is empty, with a joint, begins with no mark. -/
theorem not_mem_head?_intercalate (hmark : mark ≠ a) (h : ∀ part ∈ parts, mark ∉ part) :
    mark ∉ ((joint a mark).intercalate parts).head? := by
  match parts, h with
  | [], _ => nofun
  | [part], h =>
    intro hhead
    rw [List.intercalate_singleton] at hhead
    exact h part List.mem_cons_self (List.mem_of_mem_head? hhead)
  | part :: next :: parts, h =>
    intro hhead
    rw [List.intercalate_cons_cons] at hhead
    cases part with
    | nil => exact hmark (Option.some.inj hhead).symm
    | cons c part => exact h _ List.mem_cons_self (Option.some.inj hhead ▸ List.mem_cons_self)

/-- Joints start where the lengths of the pieces say, and nowhere else. -/
theorem startsAt_intercalate (hmark : mark ≠ a) (h : ∀ part ∈ parts, mark ∉ part) :
    StartsAt (joint a mark) ((joint a mark).intercalate parts) p ↔
      p ∈ cuts (parts.map List.length) := by
  induction parts generalizing p with
  | nil => simpa [cuts] using not_startsAt_of_not_mem List.not_mem_nil
  | cons part parts ih =>
    obtain ⟨hpart, hparts⟩ := List.forall_mem_cons.1 h
    cases parts with
    | nil =>
      rw [List.intercalate_singleton]
      simpa [cuts] using not_startsAt_of_not_mem hpart
    | cons next parts =>
      have hhead := not_mem_head?_intercalate hmark hparts
      rw [List.intercalate_cons_cons, startsAt_append hmark hpart hhead]
      simp only [ih hparts, List.map_cons, cuts, List.mem_cons, List.mem_map]
      grind

/-- Pieces without mark are found again. -/
theorem pieces_intercalate (hmark : mark ≠ a) (hne : parts ≠ [])
    (h : ∀ part ∈ parts, mark ∉ part) :
    pieces (joint a mark) ((joint a mark).intercalate parts) = parts := by
  induction parts with
  | nil => exact absurd rfl hne
  | cons part parts ih =>
    obtain ⟨hpart, hparts⟩ := List.forall_mem_cons.1 h
    cases parts with
    | nil =>
      rw [List.intercalate_singleton]
      exact pieces_of_not_startsAt fun _ => not_startsAt_of_not_mem hpart
    | cons next parts =>
      have hfirst : ∀ p < part.length, ¬ StartsAt (joint a mark)
          (part ++ joint a mark ++ (joint a mark).intercalate (next :: parts)) p := by
        intro p hp hstart
        rw [startsAt_append hmark hpart (not_mem_head?_intercalate hmark hparts)] at hstart
        grind
      rw [List.intercalate_cons_cons, pieces_append (by simp [joint]) hfirst,
        ih (List.cons_ne_nil _ _) hparts]

/-- Joined pieces are as long as their lengths say. -/
theorem length_intercalate (parts : List (List Char)) :
    ((joint a mark).intercalate parts).length = span (parts.map List.length) := by
  induction parts with
  | nil => rfl
  | cons part parts ih =>
    cases parts with
    | nil => simp [span]
    | cons next parts =>
      rw [List.intercalate_cons_cons, List.length_append, List.length_append, ih]
      rfl

end Text

end Propositional
