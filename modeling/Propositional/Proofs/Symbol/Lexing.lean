import Propositional.Symbol.Lexer
import Propositional.Proofs.Result
import Propositional.Proofs.Symbol.Extent

/-!
# Lexing

Reading a whole text as a relation that forgets positions. Texts can be put together in it,
as long as no word is prolonged, and it tells which labels can be read at all.
-/

namespace Propositional

/-- A text consists of symbols and of blanks around them. -/
inductive Reads : List Char → List Symbol → Prop where
  | nil : Reads [] []
  | blank {c text symbols} :
      Text.isBlank c → Reads text symbols →
      Reads (c :: text) symbols
  | symbol {text s rest symbols} :
      Symbol.read? text = some (s, rest) → Reads rest symbols →
      Reads text (s :: symbols)

/-! ## The lexer -/

theorem Reads.of_trimStart {text : List Char} {symbols : List Symbol}
    (h : Reads (Text.trimStart text) symbols) : Reads text symbols := by
  induction text with
  | nil => exact h
  | cons c text ih =>
    rw [Text.trimStart, List.dropWhile_cons] at h
    split at h
    next hc => exact .blank hc (ih h)
    next => exact h

namespace Lexer

section

variable {l l' : Lexer} {s : Symbol} {e : LexError}

theorem read_eq_ok : l.read = .ok (s, l') ↔
    ∃ rest, Symbol.read? l.rest = some (s, rest) ∧
      l' = skipBlanks ⟨l.position + byteLength s.lexeme.toList, rest⟩ := by
  rw [read]
  cases h : Symbol.read? l.rest with
  | none => simp
  | some found =>
    obtain ⟨s', rest⟩ := found
    constructor
    · intro hread
      cases hread
      exact ⟨rest, rfl, rfl⟩
    · rintro ⟨rest', hfound, rfl⟩
      cases hfound
      rfl

theorem read_eq_error : l.read = .error e ↔ Symbol.read? l.rest = none ∧ e = l.unreadable := by
  rw [read]
  cases h : Symbol.read? l.rest with
  | none => simp [eq_comm]
  | some found => simp

theorem atEnd_of_read (h : l.read = .ok (s, l')) : l.atEnd = false := by
  obtain ⟨rest, hs, -⟩ := read_eq_ok.1 h
  cases hrest : l.rest with
  | nil =>
    rw [hrest] at hs
    cases hs
  | cons c tail => rw [atEnd, hrest, List.isEmpty_cons]

theorem readAll_of_atEnd (h : l.atEnd) : l.readAll = .ok [] := by
  unfold readAll
  rw [if_pos h]

theorem readAll_of_read (h : l.read = .ok (s, l')) : l.readAll = l'.readAll.map (s :: ·) := by
  conv => lhs; unfold readAll
  rw [if_neg (by simp [atEnd_of_read h])]
  split <;> simp_all

theorem readAll_of_error (hend : l.atEnd = false) (h : l.read = .error e) :
    l.readAll = .error e := by
  unfold readAll
  rw [if_neg (by simp [hend])]
  split <;> simp_all

end

theorem reads_of_readAll {l : Lexer} {symbols : List Symbol} (h : l.readAll = .ok symbols) :
    Reads l.rest symbols := by
  fun_induction readAll l generalizing symbols with
  | case1 l hend =>
    cases h
    rw [atEnd, List.isEmpty_iff] at hend
    rw [hend]
    exact .nil
  | case2 => cases h
  | case3 l _ s l' hr ih =>
    obtain ⟨rest, hall, rfl⟩ := map_eq_ok.1 h
    obtain ⟨_, hs, rfl⟩ := read_eq_ok.1 hr
    exact .symbol hs (Reads.of_trimStart (ih hall))

theorem skipBlanks_cons {c : Char} (h : Text.isBlank c) (position : Nat) (text : List Char) :
    skipBlanks ⟨position, c :: text⟩ = skipBlanks ⟨position + c.utf8Size, text⟩ := by
  simp [skipBlanks, Text.trimStart, h, Nat.add_assoc]

/-- A lexer stays where a symbol starts. -/
theorem skipBlanks_of_read? {text rest : List Char} {s : Symbol}
    (h : Symbol.read? text = some (s, rest)) (position : Nat) :
    skipBlanks ⟨position, text⟩ = ⟨position, text⟩ := by
  cases text with
  | nil => cases h
  | cons c text =>
    have hc : Text.isBlank c = false := by
      cases hc : Text.isBlank c with
      | false => rfl
      | true =>
        rw [Symbol.read?_blank hc] at h
        cases h
    simp [skipBlanks, Text.trimStart, hc]

theorem readAll_of_reads {text : List Char} {symbols : List Symbol} (h : Reads text symbols)
    (position : Nat) : (skipBlanks ⟨position, text⟩).readAll = .ok symbols := by
  induction h generalizing position with
  | nil =>
    rw [readAll]
    rfl
  | blank hc _ ih => rw [skipBlanks_cons hc, ih]
  | @symbol text s rest symbols hs _ ih =>
    rw [skipBlanks_of_read? hs, readAll_of_read (read_eq_ok.2 ⟨rest, hs, rfl⟩), ih]
    rfl

end Lexer

/-- The symbols of a text are those that it consists of. -/
theorem lex_eq_ok_iff {text : String} {symbols : List Symbol} :
    lex text = .ok symbols ↔ Reads text.toList symbols := by
  constructor
  · intro h
    exact .of_trimStart (Lexer.reads_of_readAll h)
  · intro h
    exact Lexer.readAll_of_reads h 0

/-! ## Putting texts together -/

theorem Reads.append {text rest : List Char} {symbols symbols' : List Symbol}
    (h : Reads text symbols) (hr : EndsWord rest) (h' : Reads rest symbols') :
    Reads (text ++ rest) (symbols ++ symbols') := by
  induction h with
  | nil => exact h'
  | blank hc _ ih => exact .blank hc ih
  | @symbol text s tail symbols hs _ ih =>
    have hne : text ≠ [] := by
      rintro rfl
      cases hs
    refine .symbol ?_ ih
    rw [Symbol.read?_append hne hr, hs]
    rfl

/-! ## Names -/

/-- A label that is read as one variable. -/
def IsName (label : String) : Prop :=
  Symbol.read? label.toList = some (⟨.var, label⟩, [])

theorem IsName.reads {label : String} (h : IsName label) :
    Reads label.toList [⟨.var, label⟩] :=
  .symbol h .nil

/-- A variable is read as a name. -/
theorem readName?_of_read?_var {text rest : List Char} {label : String}
    (h : Symbol.read? text = some (⟨.var, label⟩, rest)) :
    readName? text = some (label.toList, rest) := by
  obtain ⟨t, _, h⟩ := List.exists_of_findSome?_eq_some h
  obtain ⟨⟨lexeme, r⟩, hr, he⟩ := Option.map_eq_some_iff.1 h
  cases he
  rw [Token.read?, if_pos rfl] at hr
  rw [hr, String.toList_ofList]

theorem isNameChar_of_mem_readName? {text lexeme rest : List Char}
    (h : readName? text = some (lexeme, rest)) : ∀ c ∈ lexeme, isNameChar c := by
  unfold readName? at h
  split at h
  next =>
    cases h
    exact fun c hc => List.all_eq_true.1 List.all_takeWhile c hc
  next => cases h

theorem IsName.isNameChar {label : String} (h : IsName label) :
    ∀ c ∈ label.toList, isNameChar c :=
  isNameChar_of_mem_readName? (readName?_of_read?_var h)

/-- A variable is read up to where no name goes on. -/
theorem head?_of_read?_var {text rest : List Char} {label : String}
    (h : Symbol.read? text = some (⟨.var, label⟩, rest)) :
    ∀ c ∈ rest.head?, isNameChar c = false := by
  have hr := readName?_of_read?_var h
  unfold readName? at hr
  split at hr
  next =>
    obtain ⟨-, rfl⟩ := Prod.mk.inj (Option.some.inj hr)
    intro c hc
    have h := List.head?_dropWhile_not isNameChar text
    simp only [Option.mem_def] at hc
    simpa [hc] using h
  next => cases hr

/-- What follows a variable in a text goes on with no word. -/
theorem Reads.endsWord {text : List Char} {symbols : List Symbol} (h : Reads text symbols)
    (hname : ∀ c ∈ text.head?, isNameChar c = false) : EndsWord text := by
  cases h with
  | nil => exact endsWord_nil
  | blank hc => exact endsWord_cons (Text.isWordChar_of_isBlank hc) _
  | symbol hs =>
    intro c hc
    cases hw : Text.isWordChar c with
    | false => rfl
    | true =>
      cases text with
      | nil => cases hc
      | cons c' text =>
        cases hc
        rw [← hname c rfl, Symbol.isNameChar_of_read? hs hw]

/-- The symbols in a text are read also by themselves. -/
theorem Reads.read?_lexeme {text : List Char} {symbols : List Symbol} (h : Reads text symbols)
    {s : Symbol} (hs : s ∈ symbols) : Symbol.read? s.lexeme.toList = some (s, []) := by
  induction h with
  | nil => cases hs
  | blank _ _ ih => exact ih hs
  | @symbol text s' rest symbols hread hrest ih =>
    rcases List.mem_cons.1 hs with rfl | hs
    · have hends : EndsWord rest → Symbol.read? s.lexeme.toList = some (s, []) := by
        intro hr
        refine Symbol.read?_of_append (Symbol.ne_nil_of_read? hread) hr ?_
        rw [← Symbol.append_of_read? hread]
        exact hread
      rcases Symbol.glyph_or_endsWord_or_var hread with ⟨c, hc, hlexeme⟩ | hr | hvar
      · rw [hlexeme, String.toList_ofList, Symbol.read?_glyph hc, ← hlexeme]
      · exact hends hr
      · -- a name ends where no name goes on, and no other word goes on with what is read next
        obtain ⟨token, label⟩ := s
        obtain rfl : token = .var := hvar
        exact hends (hrest.endsWord (head?_of_read?_var hread))
    · exact ih hs

/-- The labels in a text are names also by themselves. -/
theorem Reads.isName {text : List Char} {symbols : List Symbol} (h : Reads text symbols)
    {label : String} (hl : ⟨.var, label⟩ ∈ symbols) : IsName label := by
  have hread := h.read?_lexeme hl
  exact hread

end Propositional
