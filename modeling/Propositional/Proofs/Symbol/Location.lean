import Propositional.Proofs.Symbol.Names
import Propositional.Proofs.Symbol.Progress
import Propositional.Proofs.Symbol.Separation

/-!
# Location of errors

The lexemes of a text are all of it but its blanks. Where a text cannot be read, the error tells the
place and the character. What lies before it can be read by itself, although its last symbol may be
another one there: a name that a mark follows may be a keyword without the mark. The character
itself is the start of no text that can be read.
-/

namespace Propositional

open Text

/-- The lexemes of symbols, one after the other. -/
def lexemes (symbols : List Symbol) : List Char :=
  symbols.flatMap (·.lexeme.toList)

/-- A text without its blanks. -/
def withoutBlanks (text : List Char) : List Char :=
  text.filter fun c => !isBlank c

variable {text lexeme rest tail : List Char} {symbols : List Symbol} {s : Symbol} {c : Char}

/-! ## Lexemes -/

theorem isWordChar_of_mem_readWord? {word : List Char} (hw : ∀ letter ∈ word, letter.isUpper)
    (h : readWord? word text = some (lexeme, rest)) : ∀ c ∈ lexeme, isWordChar c := by
  fun_induction readWord? word text generalizing lexeme rest with
  | case1 => cases h
  | case2 =>
    cases h
    simp
  | case3 => cases h
  | case4 letter word c text hc ih =>
    obtain ⟨hletter, hword⟩ := List.forall_mem_cons.1 hw
    obtain ⟨⟨l, r⟩, hl, he⟩ := Option.map_eq_some_iff.1 h
    cases he
    exact List.forall_mem_cons.2 ⟨isWordChar_of_sameLetter hletter hc, ih hword hl⟩
  | case5 => cases h

theorem isBlank_of_isWordChar (h : isWordChar c) : isBlank c = false := by
  cases hc : isBlank c with
  | false => rfl
  | true => rw [← isWordChar_of_isBlank hc, h]

/-- No lexeme holds a blank. -/
theorem Symbol.isBlank_of_mem_lexeme (h : Symbol.read? text = some (s, rest)) :
    ∀ c ∈ s.lexeme.toList, isBlank c = false := by
  obtain ⟨t, _, h⟩ := List.exists_of_findSome?_eq_some h
  obtain ⟨⟨lexeme, r⟩, hr, he⟩ := Option.map_eq_some_iff.1 h
  cases he
  rw [String.toList_ofList]
  intro c hc
  rw [Token.read?] at hr
  split at hr
  · exact isBlank_of_isNameChar (isNameChar_of_mem_readName? hr c hc)
  · rcases Option.or_eq_some_iff.1 hr with hr | ⟨_, hr⟩
    · obtain ⟨glyph, hglyph, rfl⟩ := Token.glyph_of_readGlyph? hr
      rw [List.mem_singleton.1 hc]
      exact Token.isBlank_of_mem_glyphs hglyph
    · obtain ⟨word, hword, hr⟩ := List.exists_of_findSome?_eq_some hr
      exact isBlank_of_isWordChar
        (isWordChar_of_mem_readWord? (Token.isUpper_of_mem_words hword) hr c hc)

/-- Nothing but blanks is lost when a text is read. -/
theorem Reads.lexemes_eq (h : Reads text symbols) : lexemes symbols = withoutBlanks text := by
  induction h with
  | nil => rfl
  | blank hc _ ih => rw [withoutBlanks, List.filter_cons_of_neg (by simp [hc]), ih, withoutBlanks]
  | @symbol text s rest symbols hs _ ih =>
    have hlexeme : s.lexeme.toList.filter (fun c => !isBlank c) = s.lexeme.toList :=
      List.filter_eq_self.2 fun c hc => by simp [Symbol.isBlank_of_mem_lexeme hs c hc]
    rw [Symbol.append_of_read? hs, withoutBlanks, List.filter_append, hlexeme, ← withoutBlanks, ← ih]
    rfl

theorem Reads.lexeme_ne (h : Reads text symbols) (hs : s ∈ symbols) : s.lexeme ≠ "" := by
  intro hempty
  have hne := Symbol.ne_nil_of_read? (h.read?_lexeme hs)
  rw [hempty] at hne
  exact hne rfl

/-! ## Texts cut off -/

/-- A symbol stays one when a text is cut off behind it, or behind symbols that follow it. It is the
same symbol unless it is a name that the cut makes a keyword. -/
theorem Reads.exists_read?_cut (h : Symbol.read? (s.lexeme.toList ++ (tail ++ rest)) =
      some (s, tail ++ rest)) (htail : Reads tail symbols) :
    ∃ s', Symbol.read? (s.lexeme.toList ++ tail) = some (s', tail) := by
  have hne := Symbol.ne_nil_of_read? h
  -- where a word ends behind the symbol, it makes no difference what follows
  have hends : EndsWord (tail ++ rest) → EndsWord tail →
      Symbol.read? (s.lexeme.toList ++ tail) = some (s, tail) := by
    intro hall hcut
    rw [Symbol.read?_append hne hcut, Symbol.read?_of_append hne hall h]
    rfl
  rcases Symbol.glyph_or_endsWord_or_var h with ⟨c, hc, hlexeme⟩ | hend | hvar
  · refine ⟨s, ?_⟩
    rw [hlexeme, String.toList_ofList, List.singleton_append, Symbol.read?_glyph hc, ← hlexeme]
  · refine ⟨s, hends hend ?_⟩
    cases tail with
    | nil => exact endsWord_nil
    | cons c tail => exact endsWord_cons (hend c rfl) tail
  · obtain ⟨token, label⟩ := s
    obtain rfl : token = .var := hvar
    cases tail with
    | nil =>
      obtain ⟨hform, hv, hV⟩ := isIdentifier_of_read?_var h
      obtain ⟨t, hread, -⟩ := Symbol.read?_identifier hform hv hV
      rw [List.append_nil]
      exact ⟨_, hread⟩
    | cons c tail =>
      have hcut : EndsWord (c :: tail) := htail.endsWord fun d hd => head?_of_read?_var h d hd
      exact ⟨_, hends (endsWord_cons (hcut c rfl) _) hcut⟩

/-- What lies between two places of a lexer can be read by itself. -/
theorem Lexer.Passes.exists_reads {l l' : Lexer} (h : Lexer.Passes l symbols l') :
    ∃ passed symbols', Lexer.After passed l l' ∧ Reads passed symbols' := by
  induction h with
  | nil => exact ⟨[], [], .refl _, .nil⟩
  | @cons l s l₁ symbols l' hread _ ih =>
    obtain ⟨gap, hgap, hafter⟩ := Lexer.after_of_read hread
    obtain ⟨passed, symbols', hpassed, hreads⟩ := ih
    have htail : Reads (gap ++ passed) symbols' := hreads.blanks hgap
    obtain ⟨rest, hs, -⟩ := Lexer.read_eq_ok.1 hread
    have hall : l.rest = s.lexeme.toList ++ (gap ++ passed ++ l'.rest) := by
      rw [hafter.rest, hpassed.rest]
      simp only [List.append_assoc]
    have hrest : rest = gap ++ passed ++ l'.rest :=
      List.append_cancel_left ((Symbol.append_of_read? hs).symm.trans hall)
    rw [hall, hrest] at hs
    obtain ⟨s', hs'⟩ := Reads.exists_read?_cut hs htail
    refine ⟨s.lexeme.toList ++ (gap ++ passed), s' :: symbols', ?_, .symbol hs' htail⟩
    rw [← List.append_assoc]
    exact hafter.trans hpassed

/-! ## Where no symbol starts -/

/-- Whether a symbol starts with a character does not depend on what follows it. -/
theorem Symbol.read?_eq_none_iff :
    Symbol.read? (c :: rest) = none ↔ (∀ t : Token, c ∉ t.glyphs) ∧ isNameStart c = false := by
  constructor
  · intro h
    constructor
    · intro t hc
      rw [Symbol.read?_glyph hc] at h
      cases h
    · have hvar := List.findSome?_eq_none_iff.1 h .var (by decide)
      rw [Option.map_eq_none_iff, Token.read?, if_pos rfl, readName?, ite_eq_right_iff] at hvar
      simpa using hvar
  · rintro ⟨hglyph, hstart⟩
    cases hread : Symbol.read? (c :: rest) with
    | none => rfl
    | some found =>
      rcases Symbol.glyph_or_isNameStart_of_read? hread with ⟨t, hc⟩ | hc
      · exact absurd hc (hglyph t)
      · rw [hstart] at hc
        cases hc

/-- A text is not read that starts with what is no blank and no start of a symbol. -/
theorem not_reads_of_read?_eq_none (h : Symbol.read? (c :: rest) = none)
    (hc : isBlank c = false) (text : List Char) : ¬ Reads (c :: text) symbols := by
  intro hreads
  cases hreads with
  | blank hblank =>
    rw [hc] at hblank
    cases hblank
  | symbol hs =>
    rw [Symbol.read?_eq_none_iff.2 (Symbol.read?_eq_none_iff.1 h)] at hs
    cases hs

namespace Lexer

/-- A lexer never stands on a blank. -/
theorem head_skipBlanks (l : Lexer) : ∀ c ∈ l.skipBlanks.rest.head?, isBlank c = false := by
  intro c hc
  have h := List.head?_dropWhile_not isBlank l.rest
  have hc : (l.rest.dropWhile isBlank).head? = some c := hc
  simpa [hc] using h

theorem Passes.head {l l' : Lexer} (h : Passes l symbols l')
    (hl : ∀ c ∈ l.rest.head?, isBlank c = false) : ∀ c ∈ l'.rest.head?, isBlank c = false := by
  induction h with
  | nil => exact hl
  | cons hread _ ih =>
    obtain ⟨_, -, rfl⟩ := read_eq_ok.1 hread
    exact ih (head_skipBlanks _)

/-- The error of a text is found on the first character that can be read no more. -/
theorem exists_passes_of_error {l : Lexer} {e : LexError} (h : l.readAll = .error e) :
    ∃ symbols l' after, Passes l symbols l' ∧ l'.rest = e.found :: after ∧
      l'.position = e.position ∧ Symbol.read? l'.rest = none := by
  fun_induction readAll l with
  | case1 => cases h
  | case2 l hend cause hread =>
    cases h
    obtain ⟨hnone, rfl⟩ := read_eq_error.1 hread
    obtain ⟨c, after, hrest⟩ : ∃ c after, l.rest = c :: after :=
      List.exists_cons_of_ne_nil fun hrest => hend (atEnd_iff.2 hrest)
    refine ⟨[], l, after, .nil, ?_, rfl, hnone⟩
    rw [unreadable, hrest]
    rfl
  | case3 l _ s l₁ hread ih =>
    obtain ⟨symbols, l', after, hpasses, hl'⟩ := ih (map_eq_error.1 h)
    exact ⟨s :: symbols, l', after, .cons hread hpasses, hl'⟩

end Lexer

/-- Reading loses nothing of a text but its blanks. If a text cannot be read, the error gives the
byte at which a character stands that no symbol starts with, whatever follows it, and what lies
before that byte can be read by itself. -/
theorem lex_locates (text : String) :
    match lex text with
    | .ok symbols =>
      (∀ s ∈ symbols, s.lexeme ≠ "") ∧ lexemes symbols = withoutBlanks text.toList
    | .error e =>
      ∃ (before : String) (after : List Char),
        text.toList = before.toList ++ e.found :: after ∧ before.utf8ByteSize = e.position ∧
        isBlank e.found = false ∧
        (∃ symbols, lex before = .ok symbols ∧
          lexemes symbols = withoutBlanks before.toList) ∧
        ∀ (rest : List Char) (symbols : List Symbol),
          lex (String.ofList (e.found :: rest)) ≠ .ok symbols := by
  cases h : lex text with
  | ok symbols =>
    have hreads := lex_eq_ok_iff.1 h
    exact ⟨fun _ hs => hreads.lexeme_ne hs, hreads.lexemes_eq⟩
  | error e =>
    obtain ⟨symbols, l, after, hpasses, hrest, hposition, hnone⟩ := Lexer.exists_passes_of_error h
    obtain ⟨gap, hgap, hstart⟩ := Lexer.after_skipBlanks ⟨0, text.toList⟩
    obtain ⟨passed, symbols', hpassed, hreads⟩ := hpasses.exists_reads
    have hafter := hstart.trans hpassed
    have hbefore : Reads (gap ++ passed) symbols' := hreads.blanks hgap
    have hblank : isBlank e.found = false :=
      hpasses.head (Lexer.head_skipBlanks _) e.found (by rw [hrest]; rfl)
    rw [hrest] at hnone
    refine ⟨String.ofList (gap ++ passed), after, ?_, ?_, hblank, ⟨symbols', ?_, ?_⟩, ?_⟩
    · rw [String.toList_ofList, ← hrest]
      exact hafter.rest
    · rw [← byteLength_eq, ← hposition, hafter.position, Nat.zero_add]
    · rw [lex_eq_ok_iff, String.toList_ofList]
      exact hbefore
    · rw [String.toList_ofList]
      exact hbefore.lexemes_eq
    · intro rest symbols hok
      rw [lex_eq_ok_iff, String.toList_ofList] at hok
      exact not_reads_of_read?_eq_none hnone hblank rest hok

/-- The name `T` that the mark follows is a constant where the text is cut off. -/
example :
    lex "A∧T\u0301" = .error ⟨5, '\u0301'⟩ ∧
      lex "A∧T" = .ok [⟨.var, "A"⟩, ⟨.and, "∧"⟩, ⟨.constTrue, "T"⟩] := by
  decide +kernel

end Propositional
