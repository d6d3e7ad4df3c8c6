import Propositional.Symbol
import Propositional.Text.WordChar

/-!
# Spelling

How each token is spelled at the start of a text. A token has glyphs, single
characters that always stand for it, and words, which are matched without regard to
case and only where the word ends. What no operator, constant or parenthesis takes
may be a name. `v` is a glyph of the disjunction in either case, so no name starts
with it.
-/

namespace Propositional

/-- Equality with a capital letter without regard to case. The long s is a form of the
letter S. -/
def sameLetter (letter c : Char) : Bool :=
  c.toUpper == letter || (letter == 'S' && c == 'ſ')

/-- Splits a text after a word, given in capitals, if the text starts with the word and
the word ends there. -/
def readWord? : List Char → List Char → Option (List Char × List Char)
  | [], rest => if rest.head?.any Text.isWordChar then none else some ([], rest)
  | _ :: _, [] => none
  | letter :: word, c :: text =>
    if sameLetter letter c then (readWord? word text).map fun (lexeme, rest) => (c :: lexeme, rest)
    else none

/-- A character that a name may start with. -/
def isNameStart (c : Char) : Bool :=
  c.isAlpha || c == '_'

/-- A character that a name may go on with. -/
def isNameChar (c : Char) : Bool :=
  c.isAlphanum || c == '_'

/-- Splits a text after the longest name at its start. -/
def readName? (text : List Char) : Option (List Char × List Char) :=
  if text.head?.any isNameStart then
    some (text.takeWhile isNameChar, text.dropWhile isNameChar)
  else none

namespace Token

/-- The characters that spell a token alone. -/
def glyphs : Token → List Char
  | and => ['∧', '^', '&', '·', '*']
  | or => ['∨', 'v', 'V', '+', '∥', '|']
  | not => ['~', '\x27', '!', '¬']
  | xor => ['⊻', '⊕']
  | equiv => ['⇔', '≡', '↔', '=']
  | implies => ['⇒', '→', '⊃', '>']
  | provided => ['⇐', '←', '<']
  | constTrue => ['1', '⊤']
  | constFalse => ['0', '⊥']
  | var => []
  | openParen => ['(']
  | closeParen => [')']

/-- The words that spell a token, in capitals. -/
def words : Token → List String
  | and => ["AND"]
  | or => ["OR"]
  | not => ["NOT"]
  | xor => ["XOR"]
  | equiv => ["EQUIV"]
  | implies => ["IMPLIES"]
  | provided => ["PROVIDED"]
  | constTrue => ["T", "TRUE"]
  | constFalse => ["F", "FALSE"]
  | _ => []

def readGlyph? (t : Token) : List Char → Option (List Char × List Char)
  | [] => none
  | c :: rest => if c ∈ t.glyphs then some ([c], rest) else none

/-- Splits a text after a spelling of the token at its start. -/
def read? (t : Token) (text : List Char) : Option (List Char × List Char) :=
  if t = var then readName? text
  else (t.readGlyph? text).or (t.words.findSome? fun word => readWord? word.toList text)

/-- The tokens in the order in which they are tried. -/
def byPriority : List Token :=
  [and, or, not, xor, equiv, implies, provided, constTrue, constFalse, var, openParen, closeParen]

end Token

/-- Splits a text after the symbol at its start. -/
def Symbol.read? (text : List Char) : Option (Symbol × List Char) :=
  Token.byPriority.findSome? fun t =>
    (t.read? text).map fun (lexeme, rest) => (⟨t, String.ofList lexeme⟩, rest)

-- ---------------------------------------------------------------------------
-- A spelling is a nonempty piece of the text
-- ---------------------------------------------------------------------------

theorem append_of_readWord? {word text lexeme rest : List Char}
    (h : readWord? word text = some (lexeme, rest)) : text = lexeme ++ rest := by
  fun_induction readWord? word text generalizing lexeme rest with
  | case1 => simp at h
  | case2 => simp_all
  | case3 => simp at h
  | case4 letter word c text hc ih =>
    obtain ⟨⟨l, r⟩, hl, he⟩ := Option.map_eq_some_iff.1 h
    cases he
    rw [ih hl, List.cons_append]
  | case5 => simp at h

theorem length_of_readWord? {word text lexeme rest : List Char}
    (h : readWord? word text = some (lexeme, rest)) : lexeme.length = word.length := by
  fun_induction readWord? word text generalizing lexeme rest with
  | case1 => simp at h
  | case2 => simp_all
  | case3 => simp at h
  | case4 letter word c text hc ih =>
    obtain ⟨⟨l, r⟩, hl, he⟩ := Option.map_eq_some_iff.1 h
    cases he
    rw [List.length_cons, List.length_cons, ih hl]
  | case5 => simp at h

theorem isNameChar_of_isNameStart {c : Char} (h : isNameStart c) : isNameChar c := by
  simp only [isNameStart, isNameChar, Char.isAlphanum, Bool.or_eq_true] at h ⊢
  rcases h with h | h
  · exact .inl (.inl h)
  · exact .inr h

theorem append_of_readName? {text lexeme rest : List Char}
    (h : readName? text = some (lexeme, rest)) : text = lexeme ++ rest := by
  rw [readName?] at h
  split at h
  · cases h
    exact List.takeWhile_append_dropWhile.symm
  · cases h

theorem ne_nil_of_readName? {text lexeme rest : List Char}
    (h : readName? text = some (lexeme, rest)) : lexeme ≠ [] := by
  rw [readName?] at h
  split at h
  next hs =>
    cases h
    cases text with
    | nil => simp at hs
    | cons c text => simp [isNameChar_of_isNameStart (c := c) (by simpa using hs)]
  next => cases h

namespace Token

theorem ne_nil_of_mem_words {t : Token} {word : String} (h : word ∈ t.words) :
    word.toList ≠ [] := by
  cases t <;> simp [words] at h <;> rcases h with rfl | rfl <;> decide

theorem append_of_readGlyph? {t : Token} {text lexeme rest : List Char}
    (h : t.readGlyph? text = some (lexeme, rest)) : text = lexeme ++ rest ∧ lexeme ≠ [] := by
  cases text with
  | nil => simp [readGlyph?] at h
  | cons c text =>
    rw [readGlyph?] at h
    split at h
    · cases h
      simp
    · cases h

theorem append_of_read? {t : Token} {text lexeme rest : List Char}
    (h : t.read? text = some (lexeme, rest)) : text = lexeme ++ rest := by
  rw [read?] at h
  split at h
  · exact append_of_readName? h
  · rcases Option.or_eq_some_iff.1 h with h | ⟨_, h⟩
    · exact (append_of_readGlyph? h).1
    · obtain ⟨word, _, h⟩ := List.exists_of_findSome?_eq_some h
      exact append_of_readWord? h

theorem ne_nil_of_read? {t : Token} {text lexeme rest : List Char}
    (h : t.read? text = some (lexeme, rest)) : lexeme ≠ [] := by
  rw [read?] at h
  split at h
  · exact ne_nil_of_readName? h
  · rcases Option.or_eq_some_iff.1 h with h | ⟨_, h⟩
    · exact (append_of_readGlyph? h).2
    · obtain ⟨word, hw, h⟩ := List.exists_of_findSome?_eq_some h
      have := length_of_readWord? h
      have := List.length_pos_iff.2 (ne_nil_of_mem_words hw)
      exact List.length_pos_iff.1 (by omega)

end Token

namespace Symbol

theorem append_of_read? {text rest : List Char} {s : Symbol}
    (h : Symbol.read? text = some (s, rest)) : text = s.lexeme.toList ++ rest := by
  obtain ⟨t, _, h⟩ := List.exists_of_findSome?_eq_some h
  obtain ⟨⟨lexeme, r⟩, hr, he⟩ := Option.map_eq_some_iff.1 h
  cases he
  rw [String.toList_ofList, Token.append_of_read? hr]

theorem ne_nil_of_read? {text rest : List Char} {s : Symbol}
    (h : Symbol.read? text = some (s, rest)) : s.lexeme.toList ≠ [] := by
  obtain ⟨t, _, h⟩ := List.exists_of_findSome?_eq_some h
  obtain ⟨⟨lexeme, r⟩, hr, he⟩ := Option.map_eq_some_iff.1 h
  cases he
  rw [String.toList_ofList]
  exact Token.ne_nil_of_read? hr

theorem length_lt_of_read? {text rest : List Char} {s : Symbol}
    (h : Symbol.read? text = some (s, rest)) : rest.length < text.length := by
  have hn := List.length_pos_iff.2 (ne_nil_of_read? h)
  rw [append_of_read? h, List.length_append]
  omega

end Symbol

end Propositional
