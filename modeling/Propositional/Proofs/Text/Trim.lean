import Mathlib.Data.List.TakeWhile
import Propositional.Text.Blank

/-!
# Trimming

Texts with blanks around them. To trim such a text gives back what the blanks are around, as long
as this has no blanks at its own ends.
-/

namespace Propositional.Text

/-- Neither the first nor the last character is blank. -/
structure Tight (text : List Char) : Prop where
  head : ∀ c ∈ text.head?, isBlank c = false
  last : ∀ c ∈ text.getLast?, isBlank c = false

/-- A text is another one with blanks around it. -/
def Padded (inner text : List Char) : Prop :=
  ∃ before after, (∀ c ∈ before, isBlank c) ∧ (∀ c ∈ after, isBlank c) ∧
    text = before ++ inner ++ after

variable {inner text left right : List Char} {c : Char}

theorem tight_iff :
    Tight text ↔ text.head?.all (!isBlank ·) ∧ text.getLast?.all (!isBlank ·) := by
  simp only [Option.all_eq_true, Bool.not_eq_true']
  exact ⟨fun h => ⟨h.head, h.last⟩, fun h => ⟨h.1, h.2⟩⟩

instance (text : List Char) : Decidable (Tight text) :=
  decidable_of_iff _ tight_iff.symm

theorem Tight.reverse (h : Tight inner) : Tight inner.reverse where
  head c hc := h.last c (List.head?_reverse ▸ hc)
  last c hc := h.head c (List.getLast?_reverse ▸ hc)

theorem Padded.refl (text : List Char) : Padded text text :=
  ⟨[], [], nofun, nofun, by simp⟩

theorem Padded.reverse (h : Padded inner text) : Padded inner.reverse text.reverse := by
  obtain ⟨before, after, hbefore, hafter, rfl⟩ := h
  refine ⟨after.reverse, before.reverse, ?_, ?_, by simp⟩
  · intro c hc
    exact hafter c (List.mem_reverse.1 hc)
  · intro c hc
    exact hbefore c (List.mem_reverse.1 hc)

theorem Padded.mem (h : Padded inner text) (hc : c ∈ text) : isBlank c ∨ c ∈ inner := by
  obtain ⟨before, after, hbefore, hafter, rfl⟩ := h
  simp only [List.mem_append] at hc
  rcases hc with (hc | hc) | hc
  · exact .inl (hbefore c hc)
  · exact .inr hc
  · exact .inl (hafter c hc)

theorem Padded.count_eq (h : Padded inner text) (hc : isBlank c = false) :
    text.count c = inner.count c := by
  obtain ⟨before, after, hbefore, hafter, rfl⟩ := h
  have hblanks : ∀ blanks : List Char, (∀ d ∈ blanks, isBlank d) → blanks.count c = 0 := by
    intro blanks hblanks
    refine List.count_eq_zero.2 fun hmem => ?_
    rw [hblanks c hmem] at hc
    cases hc
  rw [List.count_append, List.count_append, hblanks before hbefore, hblanks after hafter,
    Nat.zero_add, Nat.add_zero]

/-- More blanks may stand around. -/
theorem Padded.enclose {before after : List Char} (h : Padded inner text)
    (hbefore : ∀ c ∈ before, isBlank c) (hafter : ∀ c ∈ after, isBlank c) :
    Padded inner (before ++ text ++ after) := by
  obtain ⟨before', after', hbefore', hafter', rfl⟩ := h
  refine ⟨before ++ before', after' ++ after, ?_, ?_, by simp⟩
  · exact List.forall_mem_append.2 ⟨hbefore, hbefore'⟩
  · exact List.forall_mem_append.2 ⟨hafter', hafter⟩

theorem trimStart_cons (hc : isBlank c = false) (text : List Char) :
    trimStart (c :: text) = c :: text :=
  List.dropWhile_cons_of_neg (by simp [hc])

theorem trimStart_of_head (h : ∀ c ∈ text.head?, isBlank c = false) : trimStart text = text := by
  cases text with
  | nil => rfl
  | cons c text => exact trimStart_cons (h c rfl) text

theorem trimStart_append_cons (hc : isBlank c = false) (left right : List Char) :
    trimStart (left ++ c :: right) = trimStart left ++ c :: right := by
  induction left with
  | nil => exact trimStart_cons hc right
  | cons d left ih =>
    unfold trimStart at ih ⊢
    rw [List.cons_append, List.dropWhile_cons, List.dropWhile_cons, ih]
    split <;> rfl

/-- Around a character that is not blank the two ends are trimmed apart. -/
theorem trim_append_cons (hc : isBlank c = false) (left right : List Char) :
    trim (left ++ c :: right) = trimStart left ++ c :: (trimStart right.reverse).reverse := by
  have hreverse : (trimStart left ++ c :: right).reverse =
      right.reverse ++ c :: (trimStart left).reverse := by simp
  rw [trim, trimStart_append_cons hc, hreverse, trimStart_append_cons hc]
  simp

theorem Padded.trimStart (h : Padded inner text) (hi : Tight inner) :
    ∃ after, (∀ c ∈ after, isBlank c) ∧ Text.trimStart text = inner ++ after := by
  obtain ⟨before, after, hbefore, hafter, rfl⟩ := h
  rw [Text.trimStart, List.append_assoc, List.dropWhile_append_of_pos hbefore]
  cases inner with
  | nil => exact ⟨[], nofun, List.dropWhile_eq_nil_iff.2 hafter⟩
  | cons c inner => exact ⟨after, hafter, trimStart_cons (hi.head c rfl) _⟩

theorem Padded.trim (h : Padded inner text) (hi : Tight inner) : Text.trim text = inner := by
  obtain ⟨after, hafter, htext⟩ := h.trimStart hi
  have hblank : ∀ c ∈ after.reverse, isBlank c := fun c hc => hafter c (List.mem_reverse.1 hc)
  rw [Text.trim, htext, List.reverse_append, Text.trimStart, List.dropWhile_append_of_pos hblank,
    ← Text.trimStart, trimStart_of_head hi.reverse.head, List.reverse_reverse]

/-- To trim one end leaves the other. -/
theorem Padded.of_trimStart (h : Padded inner text) (hi : Tight inner) :
    Padded inner (Text.trimStart text) := by
  obtain ⟨after, hafter, htext⟩ := h.trimStart hi
  exact ⟨[], after, nofun, hafter, htext⟩

/-! ## What trimming leaves -/

theorem exists_trimStart (text : List Char) :
    ∃ before, (∀ c ∈ before, isBlank c) ∧ text = before ++ Text.trimStart text :=
  ⟨text.takeWhile isBlank, fun _ hc => List.mem_takeWhile_imp hc,
    List.takeWhile_append_dropWhile.symm⟩

theorem head_trimStart (text : List Char) :
    ∀ c ∈ (Text.trimStart text).head?, isBlank c = false := by
  intro c hc
  have hhead := List.head?_dropWhile_not isBlank text
  rw [← Text.trimStart, hc] at hhead
  simpa using hhead

/-- What is left stands in the text at the end of some blanks and before others. -/
theorem exists_trim (text : List Char) :
    ∃ after, (∀ c ∈ after, isBlank c) ∧ Text.trimStart text = Text.trim text ++ after := by
  obtain ⟨after, hafter, htext⟩ := exists_trimStart (Text.trimStart text).reverse
  refine ⟨after.reverse, fun c hc => hafter c (List.mem_reverse.1 hc), ?_⟩
  rw [Text.trim, ← List.reverse_append, ← htext, List.reverse_reverse]

theorem padded_trim (text : List Char) : Padded (Text.trim text) text := by
  obtain ⟨before, hbefore, htext⟩ := exists_trimStart text
  obtain ⟨after, hafter, hstart⟩ := exists_trim text
  exact ⟨before, after, hbefore, hafter, by rw [List.append_assoc, ← hstart, ← htext]⟩

theorem tight_trim (text : List Char) : Tight (Text.trim text) where
  head c hc := by
    obtain ⟨after, -, hstart⟩ := exists_trim text
    refine head_trimStart text c ?_
    rw [hstart, List.head?_append, hc, Option.some_or]
    rfl
  last c hc := by
    rw [Text.trim, List.getLast?_reverse] at hc
    exact head_trimStart _ c hc

/-- Blanks around a text do not change what trimming leaves. -/
theorem Padded.trim_eq (h : Padded inner text) : Text.trim text = Text.trim inner := by
  obtain ⟨before, after, hbefore, hafter, rfl⟩ := h
  exact ((padded_trim inner).enclose hbefore hafter).trim (tight_trim inner)

theorem mem_of_mem_trim (h : c ∈ Text.trim text) : c ∈ text := by
  obtain ⟨before, after, -, -, htext⟩ := padded_trim text
  rw [htext]
  exact List.mem_append_left _ (List.mem_append_right _ h)

/-- Nothing is left exactly of blank texts. -/
theorem trim_eq_nil_iff : Text.trim text = [] ↔ ∀ c ∈ text, isBlank c := by
  constructor
  · intro h c hc
    have hpadded := padded_trim text
    rw [h] at hpadded
    exact (hpadded.mem hc).resolve_right List.not_mem_nil
  · intro h
    exact Padded.trim ⟨text, [], h, nofun, by simp⟩ ⟨nofun, nofun⟩

theorem trim_ne_nil_iff : Text.trim text ≠ [] ↔ ∃ c ∈ text, isBlank c = false := by
  rw [ne_eq, trim_eq_nil_iff]
  simp

end Propositional.Text
