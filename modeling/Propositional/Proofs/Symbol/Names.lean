import Mathlib.Data.List.TakeWhile
import Propositional.Proofs.Symbol.Lexing

/-!
# Names

A word that looks like a name is read as a whole, except that the glyph `v` is split off where the
word starts with it. What is read as a whole is a keyword or a variable, so that just those words
are names that are not reserved and do not start with the glyph.
-/

namespace Propositional

/-- A word that starts like a name and goes on like one. -/
structure IsIdentifier (word : List Char) : Prop where
  start : word.head?.any isNameStart
  chars : ∀ c ∈ word, isNameChar c

instance (word : List Char) : Decidable (IsIdentifier word) :=
  decidable_of_iff (word.head?.any isNameStart ∧ word.all isNameChar)
    ⟨fun ⟨hstart, hchars⟩ => ⟨hstart, List.all_eq_true.1 hchars⟩,
      fun h => ⟨h.start, List.all_eq_true.2 h.chars⟩⟩

/-- The words that are no names, in capitals. -/
def reservedWords : List String :=
  ["AND", "OR", "NOT", "XOR", "EQUIV", "IMPLIES", "PROVIDED", "T", "TRUE", "F", "FALSE", "V"]

/-- Whether a word is no name, in any case of its letters. -/
def IsReserved (word : List Char) : Prop :=
  ∃ reserved ∈ reservedWords, word.map Char.toUpper = reserved.toList

instance (word : List Char) : Decidable (IsReserved word) :=
  inferInstanceAs (Decidable (∃ reserved ∈ reservedWords, word.map Char.toUpper = reserved.toList))

theorem Token.mem_reservedWords {t : Token} {word : String} (h : word ∈ t.words) :
    word ∈ reservedWords := by
  cases t <;> simp [words] at h <;> rcases h with rfl | rfl <;> decide

/-! ## Keywords in a word -/

variable {word text lexeme rest : List Char}

/-- Apart from the long s, a keyword is spelled with its own letters. -/
theorem map_toUpper_of_readWord? (h : readWord? word text = some (lexeme, rest))
    (hchars : ∀ c ∈ lexeme, isNameChar c) : lexeme.map Char.toUpper = word := by
  fun_induction readWord? word text generalizing lexeme rest with
  | case1 => cases h
  | case2 =>
    cases h
    rfl
  | case3 => cases h
  | case4 letter word c text hc ih =>
    obtain ⟨⟨l, r⟩, hl, he⟩ := Option.map_eq_some_iff.1 h
    cases he
    obtain ⟨hchar, hrest⟩ := List.forall_mem_cons.1 hchars
    have hlong : c ≠ 'ſ' := by
      rintro rfl
      exact absurd hchar (by decide)
    have hupper : c.toUpper = letter := by simpa [sameLetter, hlong] using hc
    rw [List.map_cons, hupper, ih hl hrest]
  | case5 => cases h

/-- A keyword that is read from a word is all of it. -/
theorem eq_of_readWord? (hchars : ∀ c ∈ text, isNameChar c)
    (h : readWord? word text = some (lexeme, rest)) :
    lexeme = text ∧ rest = [] ∧ text.map Char.toUpper = word := by
  have htext := append_of_readWord? h
  have hrest : rest = [] := by
    cases rest with
    | nil => rfl
    | cons c rest =>
      have hend := endsWord_of_readWord? h c rfl
      rw [isWordChar_of_isNameChar (hchars c (by simp [htext]))] at hend
      cases hend
  have hlexeme : lexeme = text := by rw [htext, hrest, List.append_nil]
  refine ⟨hlexeme, hrest, ?_⟩
  rw [← hlexeme] at hchars ⊢
  exact map_toUpper_of_readWord? h hchars

/-! ## Words -/

theorem head?_of_readName? (h : readName? text = some (lexeme, rest)) :
    lexeme.head? = text.head? := by
  obtain ⟨c, tail, rfl⟩ := List.exists_cons_of_ne_nil (ne_nil_of_readName? h)
  rw [append_of_readName? h]
  rfl

theorem isIdentifier_of_readName? (h : readName? text = some (lexeme, rest)) :
    IsIdentifier lexeme where
  start := by
    rw [head?_of_readName? h]
    unfold readName? at h
    split at h
    next hstart => exact hstart
    next => cases h
  chars := isNameChar_of_mem_readName? h

theorem readName?_identifier (h : IsIdentifier word) : readName? word = some (word, []) := by
  have htake : word.takeWhile isNameChar = word := List.takeWhile_eq_self_iff.2 h.chars
  have hdrop : word.dropWhile isNameChar = [] := List.dropWhile_eq_nil_iff.2 h.chars
  rw [readName?, if_pos h.start, htake, hdrop]

namespace Token

/-- The glyphs that a name could start with spell the disjunction. -/
theorem eq_v_of_mem_glyphs {t : Token} {c : Char} (h : c ∈ t.glyphs) (hc : isNameStart c) :
    c = 'v' ∨ c = 'V' := by
  have key : t.glyphs.all fun c => !isNameStart c || c == 'v' || c == 'V' := by
    cases t <;> decide
  simpa [hc] using List.all_eq_true.1 key c h

theorem readGlyph?_identifier (h : IsIdentifier word) (hv : word.head? ≠ some 'v')
    (hV : word.head? ≠ some 'V') (t : Token) : t.readGlyph? word = none := by
  cases word with
  | nil => rfl
  | cons c word =>
    have hc : c ∉ t.glyphs := by
      intro hc
      rcases eq_v_of_mem_glyphs hc (by simpa using h.start) with rfl | rfl
      · exact hv rfl
      · exact hV rfl
    rw [readGlyph?, if_neg hc]

/-- A token that is read from a word is all of it, and the word is reserved unless the token is a
variable. -/
theorem read?_identifier (h : IsIdentifier word) (hv : word.head? ≠ some 'v')
    (hV : word.head? ≠ some 'V') {t : Token} (ht : t.read? word = some (lexeme, rest)) :
    lexeme = word ∧ rest = [] ∧ (t = var ∨ IsReserved word) := by
  rw [read?] at ht
  split at ht
  next hvar =>
    rw [readName?_identifier h] at ht
    cases ht
    exact ⟨rfl, rfl, .inl hvar⟩
  next =>
    rw [readGlyph?_identifier h hv hV, Option.none_or] at ht
    obtain ⟨reserved, hmem, hr⟩ := List.exists_of_findSome?_eq_some ht
    obtain ⟨hlexeme, hrest, hupper⟩ := eq_of_readWord? h.chars hr
    exact ⟨hlexeme, hrest, .inr ⟨reserved, mem_reservedWords hmem, hupper⟩⟩

end Token

/-- A word that does not start with a glyph is a symbol. -/
theorem Symbol.read?_identifier (h : IsIdentifier word) (hv : word.head? ≠ some 'v')
    (hV : word.head? ≠ some 'V') :
    ∃ t : Token, Symbol.read? word = some (⟨t, String.ofList word⟩, []) ∧
      (t = .var ∨ IsReserved word) := by
  have hsome : (Symbol.read? word).isSome := by
    refine List.findSome?_isSome_iff.2 ⟨.var, by decide, ?_⟩
    rw [Token.read?, if_pos rfl, readName?_identifier h]
    rfl
  obtain ⟨⟨s, rest⟩, hread⟩ := Option.isSome_iff_exists.1 hsome
  obtain ⟨t, _, ht⟩ := List.exists_of_findSome?_eq_some hread
  obtain ⟨⟨lexeme, r⟩, hr, he⟩ := Option.map_eq_some_iff.1 ht
  cases he
  obtain ⟨rfl, rfl, hreserved⟩ := Token.read?_identifier h hv hV hr
  exact ⟨t, hread, hreserved⟩

/-! ## Variables -/

/-- What is read as a variable looks like a name and does not start with a glyph. -/
theorem isIdentifier_of_read?_var {label : String}
    (h : Symbol.read? text = some (⟨.var, label⟩, rest)) :
    IsIdentifier label.toList ∧ label.toList.head? ≠ some 'v' ∧ label.toList.head? ≠ some 'V' := by
  have hname := readName?_of_read?_var h
  have hglyph : ∀ c ∈ Token.or.glyphs, text.head? ≠ some c := by
    intro c hc heq
    obtain ⟨tail, rfl⟩ := List.head?_eq_some_iff.1 heq
    rw [Symbol.read?_glyph hc] at h
    cases h
  rw [head?_of_readName? hname]
  exact ⟨isIdentifier_of_readName? hname, hglyph 'v' (by decide), hglyph 'V' (by decide)⟩

/-- A word that is not reserved is read as one variable just if the glyph `v` of the disjunction,
which stands for it wherever it is met, is not what the word starts with. -/
theorem lex_eq_var_iff {word : String} (h : IsIdentifier word.toList)
    (hfree : ¬ IsReserved word.toList) :
    lex word = .ok [⟨.var, word⟩] ↔
      word.toList.head? ≠ some 'v' ∧ word.toList.head? ≠ some 'V' := by
  rw [lex_eq_ok_iff]
  constructor
  · intro hreads
    exact (isIdentifier_of_read?_var (hreads.isName List.mem_cons_self)).2
  · rintro ⟨hv, hV⟩
    obtain ⟨t, hread, hvar | hreserved⟩ := Symbol.read?_identifier h hv hV
    · rw [hvar, String.ofList_toList] at hread
      exact .symbol hread .nil
    · exact absurd hreserved hfree

/-- Words that start with a keyword, in which the letter of the glyph stands further behind. -/
theorem lex_eq_var_iff_words :
    lex "NOT_v1" = .ok [⟨.var, "NOT_v1"⟩] ∧ lex "t0V" = .ok [⟨.var, "t0V"⟩] := by
  constructor
  · exact (lex_eq_var_iff (by decide) (by decide)).2 ⟨by decide, by decide⟩
  · exact (lex_eq_var_iff (by decide) (by decide)).2 ⟨by decide, by decide⟩

/-- The glyph `v` is split off a word that is not reserved. -/
theorem lex_splits_glyph :
    lex "vote" = .ok [⟨.or, "v"⟩, ⟨.var, "ote"⟩] ∧
      ¬ ∀ word : String, IsIdentifier word.toList → ¬ IsReserved word.toList →
        lex word = .ok [⟨.var, word⟩] := by
  have hvote : lex "vote" = .ok [⟨.or, "v"⟩, ⟨.var, "ote"⟩] :=
    toOption_eq_some.1 (by decide +kernel)
  refine ⟨hvote, fun hall => ?_⟩
  have hname := hall "vote" (by decide) (by decide)
  rw [hvote] at hname
  cases hname

end Propositional
