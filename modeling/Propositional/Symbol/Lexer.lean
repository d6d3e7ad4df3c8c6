import Propositional.Error
import Propositional.Symbol.Spelling
import Propositional.Text.Blank

/-!
# Lexer

A lexer is a place in a text: what is left to read, and how many bytes lie before it.
It stands on a symbol, on a character that no symbol starts with, or at the end;
blanks are passed over as soon as they are met. Reading all that is left ends because
each symbol takes at least one character.
-/

namespace Propositional

/-- The length of a text in bytes. -/
def byteLength (text : List Char) : Nat :=
  text.foldl (fun n c => n + c.utf8Size) 0

@[simp] theorem byteLength_nil : byteLength [] = 0 := rfl

private theorem foldl_utf8Size (text : List Char) (n : Nat) :
    text.foldl (fun n c => n + c.utf8Size) n = n + byteLength text := by
  induction text generalizing n with
  | nil => rfl
  | cons c text ih =>
    rw [byteLength, List.foldl_cons, List.foldl_cons, ih, ih]
    omega

@[simp] theorem byteLength_cons (c : Char) (text : List Char) :
    byteLength (c :: text) = c.utf8Size + byteLength text := by
  rw [byteLength, List.foldl_cons, foldl_utf8Size]
  omega

@[simp] theorem byteLength_append (s t : List Char) :
    byteLength (s ++ t) = byteLength s + byteLength t := by
  rw [byteLength, List.foldl_append, foldl_utf8Size, ← byteLength]

structure Lexer where
  position : Nat
  rest : List Char
deriving DecidableEq

namespace Lexer

/-- The lexer after the blanks it stands on. -/
def skipBlanks (l : Lexer) : Lexer where
  position := l.position + byteLength (l.rest.takeWhile Text.isBlank)
  rest := Text.trimStart l.rest

/-- The lexer at the start of a text. -/
def ofText (text : String) : Lexer :=
  skipBlanks ⟨0, text.toList⟩

def atEnd (l : Lexer) : Bool :=
  l.rest.isEmpty

/-- The error of a lexer that stands on no symbol. -/
def unreadable (l : Lexer) : LexError where
  position := l.position
  found := l.rest.head?.getD '\x00'

/-- The next symbol. -/
def peek (l : Lexer) : Except LexError Symbol :=
  match Symbol.read? l.rest with
  | some (s, _) => .ok s
  | none => .error l.unreadable

/-- The next symbol and the lexer after it. -/
def read (l : Lexer) : Except LexError (Symbol × Lexer) :=
  match Symbol.read? l.rest with
  | some (s, rest) => .ok (s, skipBlanks ⟨l.position + byteLength s.lexeme.toList, rest⟩)
  | none => .error l.unreadable

theorem length_skipBlanks_le (l : Lexer) : l.skipBlanks.rest.length ≤ l.rest.length :=
  (List.dropWhile_suffix _).length_le

theorem length_lt_of_read {l l' : Lexer} {s : Symbol} (h : l.read = .ok (s, l')) :
    l'.rest.length < l.rest.length := by
  rw [read] at h
  split at h
  next hr =>
    cases h
    exact Nat.lt_of_le_of_lt (length_skipBlanks_le _) (Symbol.length_lt_of_read? hr)
  next => cases h

/-- All symbols that are left. -/
def readAll (l : Lexer) : Except LexError (List Symbol) :=
  if l.atEnd then .ok []
  else
    match _h : l.read with
    | .error e => .error e
    | .ok (s, l') => l'.readAll.map (s :: ·)
termination_by l.rest.length
decreasing_by exact length_lt_of_read _h

end Lexer

/-- The symbols of a text. -/
def lex (text : String) : Except LexError (List Symbol) :=
  (Lexer.ofText text).readAll

end Propositional
