import Propositional.Proofs.Text.Ranges
import Propositional.Text.Quoted

/-!
# Quoted words

A text of visible ASCII characters other than the quote mark and the backslash is quoted as it
stands. Numbers are such texts.
-/

namespace Propositional.Text

/-- The ASCII characters that need no escape between double quote marks. -/
def plainRanges : List (Nat × Nat) :=
  [(0x20, 0x21), (0x23, 0x5B), (0x5D, 0x7E)]

/-- A text that is quoted as it stands. -/
def Plain (text : String) : Prop :=
  ∀ c ∈ text.toList, inRanges plainRanges c

instance : DecidablePred Plain :=
  fun text => decidable_of_iff (text.toList.all (inRanges plainRanges)) List.all_eq_true

variable {text text' : String} {c : Char}

theorem Plain.append (h : Plain text) (h' : Plain text') : Plain (text ++ text') := by
  intro c hc
  rw [String.toList_append] at hc
  exact (List.mem_append.1 hc).elim (h c) (h' c)

theorem plain_toString (n : Nat) : Plain (toString n) := by
  intro c hc
  have hc : c ∈ Nat.toDigits 10 n := by simpa [toString, Nat.repr] using hc
  have hdigit := Nat.isDigit_of_mem_toDigits (by decide) (by decide) hc
  obtain ⟨hlo, hhi⟩ := Char.isDigit_iff_toNat.1 hdigit
  have hmem : (0x23, 0x5B) ∈ plainRanges := by decide
  exact inRanges_iff.2 ⟨_, hmem, Nat.le_trans (by decide) hlo, Nat.le_trans hhi (by decide)⟩

/-- Characters that are told to be others than the plain ones. -/
theorem not_mem_of_plain (h : inRanges plainRanges c) {cs : List Char}
    (hcs : cs.all fun d => !inRanges plainRanges d) : c ∉ cs := by
  intro hc
  simpa [h] using List.all_eq_true.1 hcs c hc

theorem isPrintable_of_plain (h : inRanges plainRanges c) : isPrintable c := by
  have hunprintable : inRanges unprintableRanges c = false :=
    disjoint_of_ranges (by decide +kernel) h
  have hextender : inRanges extenderRanges c = false := disjoint_of_ranges (by decide +kernel) h
  have hfiller : c ∉ fillers := not_mem_of_plain h (by decide)
  rw [isPrintable, hunprintable, hextender]
  simpa using hfiller

theorem escape_of_plain (h : inRanges plainRanges c) : escape '\x22' c = c.toString := by
  have hmarks : c ∉ ['\x00', '\t', '\r', '\n', '\x22', '\x5c'] := not_mem_of_plain h (by decide)
  simp only [List.mem_cons, List.not_mem_nil, or_false, not_or] at hmarks
  obtain ⟨hnul, htab, hreturn, hnewline, hmark⟩ := hmarks
  rw [escape, if_neg hnul, if_neg htab, if_neg hreturn, if_neg hnewline,
    if_neg (not_or.2 hmark), if_pos (isPrintable_of_plain h)]

theorem Plain.quote (h : Plain text) : quote text = "\x22" ++ text ++ "\x22" := by
  have hescape : text.toList.map (escape '\x22') = text.toList.map Char.toString :=
    List.map_congr_left fun c hc => escape_of_plain (h c hc)
  have hjoin : String.join (text.toList.map Char.toString) = text := by
    rw [← String.toList_inj, String.toList_join, List.flatMap_map]
    simp
  rw [Text.quote, hescape, hjoin]

/-! ## Lines -/

theorem not_mem_hexadecimal (n : Nat) : '\n' ∉ (hexadecimal n).toList := by
  rw [hexadecimal, String.toList_ofList]
  induction n using Nat.strongRecOn with
  | ind n ih =>
    rw [Nat.toDigits_eq_if (by decide)]
    split
    next => simp
    next hn =>
      have hlt : n / 16 < n := Nat.div_lt_self (by omega) (by decide)
      simpa using ih _ hlt

theorem not_mem_escape (mark c : Char) : '\n' ∉ (escape mark c).toList := by
  by_cases hc : c = '\n'
  · simp [escape, hc]
  · unfold escape
    repeat' split
    all_goals simp [Ne.symm hc, not_mem_hexadecimal]

/-- Whatever is quoted, a quoted text is a single line. -/
theorem not_mem_quote (text : String) : '\n' ∉ (quote text).toList := by
  simp [quote, String.toList_join, not_mem_escape]

end Propositional.Text
