import Propositional.Proofs.Text.Ranges
import Propositional.Symbol.Spelling
import Propositional.Text.Blank

/-!
# Extent of symbols

Where the symbol at the start of a text ends does not depend on what follows the text, as
long as no word goes on there; and the character that a symbol starts with tells it from
blanks and from what goes on with a word.
-/

namespace Propositional

/-! ## Letters of words -/

theorem Token.isUpper_of_mem_words {t : Token} {word : String} (h : word ∈ t.words) :
    ∀ letter ∈ word.toList, letter.isUpper := by
  have key : word.toList.all Char.isUpper := by
    cases t <;> simp [words] at h <;> rcases h with rfl | rfl <;> decide
  exact List.all_eq_true.1 key

theorem isAlpha_of_isUpper_toUpper {c : Char} (h : c.toUpper.isUpper) : c.isAlpha := by
  have halpha : c.isAlpha = (c.isUpper || c.isLower) := rfl
  rw [halpha, Bool.or_eq_true]
  by_cases hc : 'a'.val ≤ c.val ∧ c.val ≤ 'z'.val
  · exact .inr (Bool.and_eq_true_iff.2 ⟨decide_eq_true hc.1, decide_eq_true hc.2⟩)
  · have hsame : c.toUpper = c := dif_neg hc
    rw [hsame] at h
    exact .inl h

/-- A form of a capital letter is a letter or, of the letter S, the long s. -/
theorem isAlpha_of_sameLetter {letter c : Char} (hl : letter.isUpper) (h : sameLetter letter c) :
    c.isAlpha ∨ letter = 'S' ∧ c = 'ſ' := by
  simp only [sameLetter, Bool.or_eq_true, beq_iff_eq, Bool.and_eq_true] at h
  rcases h with rfl | hs
  · exact .inl (isAlpha_of_isUpper_toUpper hl)
  · exact .inr hs

theorem isWordChar_of_isNameChar {c : Char} (h : isNameChar c) : Text.isWordChar c := by
  rw [isNameChar] at h
  rw [Text.isWordChar, h, Bool.true_or]

theorem isWordChar_of_sameLetter {letter c : Char} (hl : letter.isUpper)
    (h : sameLetter letter c) : Text.isWordChar c := by
  rcases isAlpha_of_sameLetter hl h with ha | ⟨-, rfl⟩
  · exact isWordChar_of_isNameChar (by simp [isNameChar, Char.isAlphanum, ha])
  · decide

/-! ## What follows a symbol -/

/-- No word goes on at the start of a text. -/
def EndsWord (text : List Char) : Prop :=
  ∀ c ∈ text.head?, Text.isWordChar c = false

theorem endsWord_nil : EndsWord [] := by
  simp [EndsWord]

theorem endsWord_cons {c : Char} (h : Text.isWordChar c = false) (text : List Char) :
    EndsWord (c :: text) := by
  simpa [EndsWord] using h

variable {text rest : List Char}

theorem readWord?_append {word : List Char} (hw : ∀ letter ∈ word, letter.isUpper)
    (hr : EndsWord rest) :
    readWord? word (text ++ rest) = (readWord? word text).map fun (l, r) => (l, r ++ rest) := by
  induction word generalizing text with
  | nil =>
    cases text with
    | nil =>
      cases rest with
      | nil => rfl
      | cons c rest => simp [readWord?, hr c rfl]
    | cons c text =>
      simp only [readWord?, List.cons_append, List.head?_cons, Option.any_some]
      by_cases hc : Text.isWordChar c = true <;> simp [hc]
  | cons letter word ih =>
    cases text with
    | nil =>
      cases rest with
      | nil => rfl
      | cons c rest =>
        have hc : sameLetter letter c = false := by
          by_cases h : sameLetter letter c = true
          · have := isWordChar_of_sameLetter (hw letter List.mem_cons_self) h
            rw [hr c rfl] at this
            cases this
          · simpa using h
        simp [readWord?, hc]
    | cons c text =>
      rw [List.cons_append, readWord?, readWord?]
      by_cases hc : sameLetter letter c = true
      · rw [if_pos hc, if_pos hc, ih fun l hl => hw l (List.mem_cons_of_mem _ hl), Option.map_map,
          Option.map_map]
        rfl
      · rw [if_neg hc, if_neg hc]
        rfl

theorem takeWhile_isNameChar_append (text : List Char) (hr : EndsWord rest) :
    (text ++ rest).takeWhile isNameChar = text.takeWhile isNameChar ∧
      (text ++ rest).dropWhile isNameChar = text.dropWhile isNameChar ++ rest := by
  have hstop : rest.takeWhile isNameChar = [] ∧ rest.dropWhile isNameChar = rest := by
    cases rest with
    | nil => exact ⟨rfl, rfl⟩
    | cons c rest =>
      have hc : isNameChar c = false := by
        by_cases h : isNameChar c = true
        · have := isWordChar_of_isNameChar h
          rw [hr c rfl] at this
          cases this
        · simpa using h
      simp [hc]
  induction text with
  | nil => exact hstop
  | cons c text ih =>
    by_cases hc : isNameChar c = true <;> simp [hc, ih]

theorem readName?_append (hne : text ≠ []) (hr : EndsWord rest) :
    readName? (text ++ rest) = (readName? text).map fun (l, r) => (l, r ++ rest) := by
  obtain ⟨c, text, rfl⟩ := List.exists_cons_of_ne_nil hne
  obtain ⟨htake, hdrop⟩ := takeWhile_isNameChar_append (c :: text) hr
  rw [readName?, readName?, htake, hdrop, List.cons_append, List.head?_cons, List.head?_cons]
  by_cases hc : isNameStart c = true <;> simp [hc]

namespace Token

theorem readGlyph?_append (t : Token) (hne : text ≠ []) :
    t.readGlyph? (text ++ rest) = (t.readGlyph? text).map fun (l, r) => (l, r ++ rest) := by
  obtain ⟨c, text, rfl⟩ := List.exists_cons_of_ne_nil hne
  rw [List.cons_append, readGlyph?, readGlyph?]
  by_cases hc : c ∈ t.glyphs <;> simp [hc]

theorem glyph_of_readGlyph? {t : Token} {lexeme : List Char}
    (h : t.readGlyph? text = some (lexeme, rest)) : ∃ c ∈ t.glyphs, lexeme = [c] := by
  cases text with
  | nil => cases h
  | cons c text =>
    rw [readGlyph?] at h
    split at h
    next hc =>
      cases h
      exact ⟨c, hc, rfl⟩
    next => cases h

theorem readWords?_append {words : List String}
    (hw : ∀ word ∈ words, ∀ letter ∈ word.toList, letter.isUpper) (hr : EndsWord rest) :
    (words.findSome? fun word => readWord? word.toList (text ++ rest)) =
      (words.findSome? fun word => readWord? word.toList text).map
        fun (l, r) => (l, r ++ rest) := by
  induction words with
  | nil => rfl
  | cons word words ih =>
    rw [List.findSome?_cons, List.findSome?_cons, readWord?_append (hw word List.mem_cons_self) hr,
      ih fun w h => hw w (List.mem_cons_of_mem _ h)]
    cases readWord? word.toList text <;> rfl

theorem read?_append (t : Token) (hne : text ≠ []) (hr : EndsWord rest) :
    t.read? (text ++ rest) = (t.read? text).map fun (l, r) => (l, r ++ rest) := by
  rw [read?, read?]
  split
  · exact readName?_append hne hr
  · rw [readGlyph?_append t hne, Option.map_or,
      readWords?_append (fun _ h => isUpper_of_mem_words h) hr]

end Token

/-- A symbol ends where it ended before when something is put after it that goes on with no
word. -/
theorem Symbol.read?_append (hne : text ≠ []) (hr : EndsWord rest) :
    Symbol.read? (text ++ rest) = (Symbol.read? text).map fun (s, r) => (s, r ++ rest) := by
  rw [read?, read?]
  induction Token.byPriority with
  | nil => rfl
  | cons t ts ih =>
    rw [List.findSome?_cons, List.findSome?_cons, Token.read?_append t hne hr, ih]
    cases t.read? text <;> rfl

/-- A symbol is read also without what follows it, if that goes on with no word. -/
theorem Symbol.read?_of_append {s : Symbol} (hne : text ≠ []) (hr : EndsWord rest)
    (h : Symbol.read? (text ++ rest) = some (s, rest)) : Symbol.read? text = some (s, []) := by
  rw [Symbol.read?_append hne hr] at h
  obtain ⟨⟨s', r⟩, hread, he⟩ := Option.map_eq_some_iff.1 h
  obtain ⟨rfl, rfl⟩ : s' = s ∧ r = [] := by simpa using he
  exact hread

/-- A word is read only where it ends. -/
theorem endsWord_of_readWord? {word lexeme : List Char}
    (h : readWord? word text = some (lexeme, rest)) : EndsWord rest := by
  fun_induction readWord? word text generalizing lexeme rest with
  | case1 => cases h
  | case2 text hend =>
    cases h
    intro c hc
    rw [Option.mem_def.1 hc] at hend
    simpa using hend
  | case3 => cases h
  | case4 letter word c text hc ih =>
    obtain ⟨⟨l, r⟩, hl, he⟩ := Option.map_eq_some_iff.1 h
    cases he
    exact ih hl
  | case5 => cases h

/-- A symbol is a glyph, a word that ends where it ends, or a variable. -/
theorem Symbol.glyph_or_endsWord_or_var {s : Symbol} (h : Symbol.read? text = some (s, rest)) :
    (∃ c ∈ s.token.glyphs, s.lexeme = String.ofList [c]) ∨ EndsWord rest ∨ s.token = .var := by
  obtain ⟨t, _, h⟩ := List.exists_of_findSome?_eq_some h
  obtain ⟨⟨lexeme, r⟩, hr, he⟩ := Option.map_eq_some_iff.1 h
  cases he
  rw [Token.read?] at hr
  split at hr
  next hvar => exact .inr (.inr hvar)
  next =>
    rcases Option.or_eq_some_iff.1 hr with hr | ⟨_, hr⟩
    · obtain ⟨c, hc, rfl⟩ := Token.glyph_of_readGlyph? hr
      exact .inl ⟨c, hc, rfl⟩
    · obtain ⟨word, _, hr⟩ := List.exists_of_findSome?_eq_some hr
      exact .inr (.inl (endsWord_of_readWord? hr))

/-! ## The first character of a symbol -/

/-- No word starts with the letter that has a form outside of the alphabet. -/
theorem Token.head_ne_of_mem_words {t : Token} {word : String} (h : word ∈ t.words) :
    word.toList.head? ≠ some 'S' := by
  cases t <;> simp [words] at h <;> rcases h with rfl | rfl <;> decide

theorem isNameStart_of_readWord? {word lexeme : List Char} {c : Char}
    (hne : word ≠ []) (hw : ∀ letter ∈ word, letter.isUpper) (hs : word.head? ≠ some 'S')
    (h : readWord? word (c :: text) = some (lexeme, rest)) : isNameStart c := by
  obtain ⟨letter, word, rfl⟩ := List.exists_cons_of_ne_nil hne
  rw [readWord?] at h
  split at h
  next hc =>
    rcases isAlpha_of_sameLetter (hw letter List.mem_cons_self) hc with ha | ⟨rfl, -⟩
    · simp [isNameStart, ha]
    · exact absurd rfl hs
  next => cases h

theorem Token.glyph_or_isNameStart_of_read? {t : Token} {c : Char} {lexeme : List Char}
    (h : t.read? (c :: text) = some (lexeme, rest)) : c ∈ t.glyphs ∨ isNameStart c := by
  rw [read?] at h
  split at h
  · rw [readName?] at h
    split at h
    next hs => exact .inr (by simpa using hs)
    next => cases h
  · rcases Option.or_eq_some_iff.1 h with h | ⟨_, h⟩
    · rw [readGlyph?] at h
      split at h
      next hc => exact .inl hc
      next => cases h
    · obtain ⟨word, hw, h⟩ := List.exists_of_findSome?_eq_some h
      exact .inr (isNameStart_of_readWord? (ne_nil_of_mem_words hw) (isUpper_of_mem_words hw)
        (head_ne_of_mem_words hw) h)

/-- A glyph that words may go on with is also a character of names. -/
theorem Token.isNameChar_of_mem_glyphs {t : Token} {c : Char} (h : c ∈ t.glyphs)
    (hc : Text.isWordChar c) : isNameChar c := by
  have key : t.glyphs.all fun c => !Text.isWordChar c || isNameChar c := by
    cases t <;> decide +kernel
  simpa [hc] using List.all_eq_true.1 key c h

theorem Symbol.glyph_or_isNameStart_of_read? {s : Symbol} {c : Char}
    (h : Symbol.read? (c :: text) = some (s, rest)) :
    (∃ t : Token, c ∈ t.glyphs) ∨ isNameStart c := by
  obtain ⟨t, _, h⟩ := List.exists_of_findSome?_eq_some h
  obtain ⟨⟨lexeme, r⟩, hr, _⟩ := Option.map_eq_some_iff.1 h
  exact (Token.glyph_or_isNameStart_of_read? hr).imp_left fun hg => ⟨t, hg⟩

/-- A symbol starts with a character that goes on with no word, unless it goes on with names
too. -/
theorem Symbol.isNameChar_of_read? {s : Symbol} {c : Char}
    (h : Symbol.read? (c :: text) = some (s, rest)) (hc : Text.isWordChar c) : isNameChar c := by
  rcases glyph_or_isNameStart_of_read? h with ⟨t, hg⟩ | hs
  · exact Token.isNameChar_of_mem_glyphs hg hc
  · exact isNameChar_of_isNameStart hs

/-- A glyph is a symbol of its own whatever follows it. -/
theorem Symbol.read?_glyph {t : Token} {c : Char} (h : c ∈ t.glyphs) (rest : List Char) :
    Symbol.read? (c :: rest) = some (⟨t, String.ofList [c]⟩, rest) := by
  have key : ∀ c ∈ t.glyphs, Symbol.read? (c :: rest) = some (⟨t, String.ofList [c]⟩, rest) := by
    cases t <;> simp only [Token.glyphs, List.forall_mem_cons, List.not_mem_nil, false_implies,
      implies_true, and_true] <;>
      and_intros <;> rfl
  exact key c h

/-! ## Blanks -/

/-- The characters of names, as ranges. -/
theorem inRanges_of_isNameChar {c : Char} (h : isNameChar c) :
    Text.inRanges [(0x30, 0x39), (0x41, 0x5A), (0x5F, 0x5F), (0x61, 0x7A)] c := by
  have hclasses : isNameChar c = (c.isUpper || c.isLower || c.isDigit || c == '_') := rfl
  simp only [hclasses, Bool.or_eq_true, beq_iff_eq] at h
  simp only [Text.inRanges, List.any_cons, List.any_nil, Bool.or_false, Bool.or_eq_true,
    Bool.and_eq_true, decide_eq_true_eq]
  rcases h with ((h | h) | h) | rfl
  · exact .inr (.inl (of_decide_eq_true h))
  · exact .inr (.inr (.inr ((Bool.and_eq_true_iff.1 h).imp of_decide_eq_true of_decide_eq_true)))
  · exact .inl (Char.isDigit_iff_toNat.1 h)
  · exact .inr (.inr (.inl ⟨by decide, by decide⟩))

theorem Text.isWordChar_of_isBlank {c : Char} (h : isBlank c) : isWordChar c = false := by
  have hname : isNameChar c = false := by
    cases hn : isNameChar c with
    | false => rfl
    | true =>
      have hblank : inRanges blankRanges c = false :=
        disjoint_of_ranges (by decide) (inRanges_of_isNameChar hn)
      rw [isBlank, hblank] at h
      cases h
  have hwords : inRanges wordRanges c = false := disjoint_of_ranges (by decide +kernel) h
  rw [isNameChar] at hname
  rw [isWordChar, hname, hwords, Bool.or_false]

theorem isBlank_of_isNameChar {c : Char} (h : isNameChar c) : Text.isBlank c = false := by
  cases hc : Text.isBlank c with
  | false => rfl
  | true =>
    rw [← Text.isWordChar_of_isBlank hc, isWordChar_of_isNameChar h]

theorem Token.isBlank_of_mem_glyphs {t : Token} {c : Char} (h : c ∈ t.glyphs) :
    Text.isBlank c = false := by
  have key : t.glyphs.all fun c => !Text.isBlank c := by
    cases t <;> decide
  simpa using List.all_eq_true.1 key c h

/-- No symbol starts with a blank. -/
theorem Symbol.read?_blank {c : Char} (h : Text.isBlank c) (text : List Char) :
    Symbol.read? (c :: text) = none := by
  cases hr : Symbol.read? (c :: text) with
  | none => rfl
  | some found =>
    rcases glyph_or_isNameStart_of_read? hr with ⟨t, hg⟩ | hs
    · rw [Token.isBlank_of_mem_glyphs hg] at h
      cases h
    · have hc := isWordChar_of_isNameChar (isNameChar_of_isNameStart hs)
      rw [Text.isWordChar_of_isBlank h] at hc
      cases hc

end Propositional
