import Propositional.Proofs.Symbol.Lexing

/-!
# Progress of a lexer

A lexer is asked for its next symbol, moved past it, or asked whether it is at the end, in any
order. All that counts is how many symbols have been read: they are those that the whole text
starts with, and what is left is read as if the text had been read at once. Only a symbol moves the
lexer on, so it stops for good where none starts.
-/

namespace Propositional

/-! ## Bytes -/

/-- The number of bytes that encode a text. -/
theorem byteLength_eq (text : List Char) : byteLength text = (String.ofList text).utf8ByteSize := by
  induction text with
  | nil => rfl
  | cons c text ih =>
    rw [byteLength_cons, String.ofList_cons, String.utf8ByteSize_append,
      String.utf8ByteSize_singleton, ih]

theorem byteLength_pos {text : List Char} (h : text ≠ []) : 0 < byteLength text := by
  obtain ⟨c, text, rfl⟩ := List.exists_cons_of_ne_nil h
  have := c.utf8Size_pos
  rw [byteLength_cons]
  omega

namespace Lexer

/-- The symbols that lie between two places of a lexer. -/
inductive Passes : Lexer → List Symbol → Lexer → Prop where
  | nil {l} : Passes l [] l
  | cons {l s l' symbols l''} :
      l.read = .ok (s, l') → Passes l' symbols l'' →
      Passes l (s :: symbols) l''

variable {l l' l'' : Lexer} {s : Symbol} {symbols symbols' : List Symbol} {e : LexError}

/-! ## Places -/

/-- A lexer that has moved over a piece of the text. -/
structure After (passed : List Char) (l l' : Lexer) : Prop where
  rest : l.rest = passed ++ l'.rest
  position : l'.position = l.position + byteLength passed

theorem After.refl (l : Lexer) : After [] l l where
  rest := rfl
  position := rfl

theorem After.trans {passed passed' : List Char} (h : After passed l l')
    (h' : After passed' l' l'') : After (passed ++ passed') l l'' where
  rest := by rw [h.rest, h'.rest, List.append_assoc]
  position := by rw [h'.position, h.position, byteLength_append, Nat.add_assoc]

theorem after_skipBlanks (l : Lexer) :
    ∃ gap, (∀ c ∈ gap, Text.isBlank c) ∧ After gap l l.skipBlanks := by
  refine ⟨l.rest.takeWhile Text.isBlank, ?_, ?_, rfl⟩
  · intro c hc
    exact List.all_eq_true.1 List.all_takeWhile c hc
  · exact List.takeWhile_append_dropWhile.symm

/-- Between a symbol that is read and the place after it there is nothing but blanks. -/
theorem after_of_read (h : l.read = .ok (s, l')) :
    ∃ gap, (∀ c ∈ gap, Text.isBlank c) ∧ After (s.lexeme.toList ++ gap) l l' := by
  obtain ⟨rest, hs, rfl⟩ := read_eq_ok.1 h
  obtain ⟨gap, hgap, hafter⟩ :=
    after_skipBlanks ⟨l.position + byteLength s.lexeme.toList, rest⟩
  exact ⟨gap, hgap, After.trans ⟨Symbol.append_of_read? hs, rfl⟩ hafter⟩

theorem position_lt_of_read (h : l.read = .ok (s, l')) : l.position < l'.position := by
  obtain ⟨_, hs, -⟩ := read_eq_ok.1 h
  obtain ⟨gap, -, hafter⟩ := after_of_read h
  have hpos := byteLength_pos (Symbol.ne_nil_of_read? hs)
  rw [hafter.position, byteLength_append]
  omega

/-! ## Symbols in a row -/

theorem Passes.append (h : Passes l symbols l') (h' : Passes l' symbols' l'') :
    Passes l (symbols ++ symbols') l'' := by
  induction h with
  | nil => exact h'
  | cons hread _ ih => exact .cons hread (ih h')

theorem Passes.after (h : Passes l symbols l') : ∃ passed, After passed l l' := by
  induction h with
  | nil => exact ⟨[], .refl _⟩
  | cons hread _ ih =>
    obtain ⟨gap, -, hafter⟩ := after_of_read hread
    obtain ⟨passed, hpassed⟩ := ih
    exact ⟨_, hafter.trans hpassed⟩

theorem Passes.position_le (h : Passes l symbols l') : l.position ≤ l'.position := by
  obtain ⟨passed, hafter⟩ := h.after
  rw [hafter.position]
  exact Nat.le_add_right _ _

theorem Passes.readAll_eq (h : Passes l symbols l') :
    l.readAll = l'.readAll.map (symbols ++ ·) := by
  induction h with
  | @nil l => cases l.readAll <;> rfl
  | @cons l s l' symbols l'' hread _ ih =>
    rw [readAll_of_read hread, ih]
    cases l''.readAll <;> rfl

theorem atEnd_iff : l.atEnd ↔ l.rest = [] := by
  rw [atEnd, List.isEmpty_iff]

/-- A lexer that finds nothing more is at the end. -/
theorem readAll_eq_nil : l.readAll = .ok [] ↔ l.atEnd := by
  constructor
  · intro h
    by_cases hend : l.atEnd = true
    · exact hend
    · cases hread : l.read with
      | error e =>
        rw [readAll_of_error (by simpa using hend) hread] at h
        cases h
      | ok found =>
        rw [readAll_of_read hread] at h
        obtain ⟨_, -, hcons⟩ := map_eq_ok.1 h
        cases hcons
  · exact readAll_of_atEnd

/-! ## A bounded number of reads -/

/-- All symbols that are left, given up when they are not read within `n` reads. -/
def readAllWithin (l : Lexer) : Nat → Option (Except LexError (List Symbol))
  | 0 => if l.atEnd then some (.ok []) else none
  | n + 1 =>
    if l.atEnd then some (.ok [])
    else
      match l.read with
      | .error e => some (.error e)
      | .ok (s, l') => (l'.readAllWithin n).map (·.map (s :: ·))

/-- As many reads as there are bytes left are enough. -/
theorem readAllWithin_eq {n : Nat} (h : byteLength l.rest ≤ n) :
    l.readAllWithin n = some l.readAll := by
  induction n generalizing l with
  | zero =>
    have hend : l.atEnd := by
      rw [atEnd_iff]
      cases hrest : l.rest with
      | nil => rfl
      | cons c rest =>
        have := byteLength_pos (hrest ▸ List.cons_ne_nil c rest)
        omega
    rw [readAllWithin, if_pos hend, readAll_of_atEnd hend]
  | succ n ih =>
    rw [readAllWithin]
    split
    next hend => rw [readAll_of_atEnd hend]
    next hend =>
      cases hread : l.read with
      | error e => rw [readAll_of_error (by simpa using hend) hread]
      | ok found =>
        obtain ⟨s, l'⟩ := found
        obtain ⟨gap, -, hafter⟩ := after_of_read hread
        have hlt := position_lt_of_read hread
        have hbytes : byteLength l'.rest ≤ n := by
          rw [hafter.rest, byteLength_append] at h
          have := hafter.position
          omega
        rw [readAll_of_read hread, ← Option.map_some, ← ih hbytes]

/-! ## Requests -/

/-- What can be asked of a lexer before all that is left is read. -/
inductive Request where
  | peek
  | read
  | atEnd

inductive Reply where
  | symbol (found : Except LexError Symbol)
  | flag (b : Bool)

/-- The reply to a request, and the lexer after it. -/
def serve (l : Lexer) : Request → Reply × Lexer
  | .peek => (.symbol l.peek, l)
  | .read =>
    match l.read with
    | .ok (s, l') => (.symbol (.ok s), l')
    | .error e => (.symbol (.error e), l)
  | .atEnd => (.flag l.atEnd, l)

/-- The replies to requests one after the other, and the lexer after them. -/
def serveAll (l : Lexer) : List Request → List Reply × Lexer
  | [] => ([], l)
  | request :: requests =>
    let (reply, l') := l.serve request
    let (replies, l'') := l'.serveAll requests
    (reply :: replies, l'')

namespace Request

/-- The symbol that a request took away, by the reply to it. -/
def taken : Request → Reply → Option Symbol
  | read, .symbol (.ok s) => some s
  | _, _ => none

/-- The reply of a lexer that stands on no symbol. -/
def refusal (l : Lexer) (e : LexError) : Request → Reply
  | peek | read => .symbol (.error e)
  | atEnd => .flag l.atEnd

end Request

/-- The symbols that requests take away. -/
def taken (l : Lexer) (requests : List Request) : List Symbol :=
  (requests.zip (l.serveAll requests).1).filterMap fun served => served.1.taken served.2

theorem serve_read (h : l.read = .ok (s, l')) : l.serve .read = (.symbol (.ok s), l') := by
  simp only [serve, h]

theorem serve_read_of_error (h : l.read = .error e) :
    l.serve .read = (.symbol (.error e), l) := by
  simp only [serve, h]

theorem peek_of_read (h : l.read = .ok (s, l')) : l.peek = .ok s := by
  obtain ⟨_, hs, -⟩ := read_eq_ok.1 h
  rw [peek, hs]

theorem peek_of_error (h : l.read = .error e) : l.peek = .error e := by
  obtain ⟨hs, rfl⟩ := read_eq_error.1 h
  rw [peek, hs]

/-- What is next is what is read next. -/
theorem serve_peek (l : Lexer) : l.serve .peek = ((l.serve .read).1, l) := by
  cases h : l.read with
  | error e => rw [serve_read_of_error h, serve, peek_of_error h]
  | ok found => rw [serve_read h, serve, peek_of_read h]

theorem serveAll_cons (l : Lexer) (request : Request) (requests : List Request) :
    l.serveAll (request :: requests) =
      ((l.serve request).1 :: ((l.serve request).2.serveAll requests).1,
        ((l.serve request).2.serveAll requests).2) := rfl

theorem serve_passes (l : Lexer) (request : Request) :
    Passes l (request.taken (l.serve request).1).toList (l.serve request).2 := by
  cases request with
  | peek | atEnd => exact .nil
  | read =>
    cases h : l.read with
    | error e =>
      rw [serve_read_of_error h]
      exact .nil
    | ok found =>
      rw [serve_read h]
      exact .cons h .nil

/-- However a lexer is used, it passes the symbols that are taken away. -/
theorem serveAll_passes (l : Lexer) (requests : List Request) :
    Passes l (l.taken requests) (l.serveAll requests).2 := by
  induction requests generalizing l with
  | nil => exact .nil
  | cons request requests ih =>
    have htaken : l.taken (request :: requests) =
        (request.taken (l.serve request).1).toList ++ (l.serve request).2.taken requests := by
      rw [taken, serveAll_cons, List.zip_cons_cons, List.filterMap_cons]
      dsimp only
      cases request.taken (l.serve request).1 <;> rfl
    rw [htaken]
    exact (l.serve_passes request).append (ih _)

/-- Where no symbol starts, requests are refused and leave the lexer where it is. -/
theorem serveAll_of_error (h : l.read = .error e) (requests : List Request) :
    l.serveAll requests = (requests.map (Request.refusal l e), l) := by
  have hserve : ∀ request, l.serve request = (request.refusal l e, l) := by
    intro request
    cases request with
    | peek => rw [serve, peek_of_error h, Request.refusal]
    | read => rw [serve_read_of_error h, Request.refusal]
    | atEnd => rfl
  induction requests with
  | nil => rfl
  | cons request requests ih => rw [serveAll_cons, hserve, ih, List.map_cons]

/-! ## A lexer in its text -/

/-- A lexer stands between two characters of a text, or at an end of it. -/
def StandsIn (text : String) (l : Lexer) : Prop :=
  ∃ before : String, before ++ String.ofList l.rest = text ∧ before.utf8ByteSize = l.position

/-- All that is read from a text is passed from its start. -/
theorem standsIn_of_passes {text : String} (h : Passes (ofText text) symbols l) :
    StandsIn text l := by
  obtain ⟨gap, -, hstart⟩ := after_skipBlanks ⟨0, text.toList⟩
  obtain ⟨passed, hpassed⟩ := h.after
  have hafter := hstart.trans hpassed
  refine ⟨String.ofList (gap ++ passed), ?_, ?_⟩
  · rw [← String.ofList_append, ← hafter.rest, String.ofList_toList]
  · rw [← byteLength_eq, hafter.position, Nat.zero_add]

theorem StandsIn.utf8ByteSize_eq {text : String} (h : StandsIn text l) :
    text.utf8ByteSize = l.position + byteLength l.rest := by
  obtain ⟨before, rfl, hposition⟩ := h
  rw [String.utf8ByteSize_append, hposition, byteLength_eq]

theorem StandsIn.atEnd_iff {text : String} (h : StandsIn text l) :
    l.atEnd ↔ l.position = text.utf8ByteSize := by
  rw [h.utf8ByteSize_eq, Lexer.atEnd_iff]
  constructor
  · intro hrest
    rw [hrest, byteLength_nil, Nat.add_zero]
  · intro hposition
    cases hrest : l.rest with
    | nil => rfl
    | cons c rest =>
      have := byteLength_pos (hrest ▸ List.cons_ne_nil c rest)
      omega

/-- A lexer can be used step by step. Whatever has been asked, it stands in its text and does not go
back; only a symbol that is read moves it, and then forwards; a request that fails is refused ever
after. The symbols taken away and those that are left are the symbols of the text, or the text fails
with the error of what is left. Reads come to an end, and no symbol is left just at the end of the
text. -/
theorem serveAll_eq_lex (text : String) (requests : List Request) :
    let l := ((ofText text).serveAll requests).2
    let taken := (ofText text).taken requests
    l.StandsIn text ∧ (l.atEnd ↔ l.position = text.utf8ByteSize) ∧
    (∀ later, l.position ≤ (l.serveAll later).2.position) ∧
    (l.serve .peek = ((l.serve .read).1, l) ∧ l.serve .atEnd = (.flag l.atEnd, l)) ∧
    (∀ s l', l.read = .ok (s, l') →
      l.serve .read = (.symbol (.ok s), l') ∧ l.position < l'.position) ∧
    (∀ e, l.read = .error e →
      ∀ later, l.serveAll later = (later.map (Request.refusal l e), l)) ∧
    l.readAll.map (taken ++ ·) = lex text ∧
    l.readAllWithin text.utf8ByteSize = some l.readAll ∧
    ∀ symbols, lex text = .ok symbols → (l.atEnd ↔ taken = symbols) := by
  intro l taken
  have hpasses : Passes (ofText text) taken l := serveAll_passes _ _
  have hstands := standsIn_of_passes hpasses
  have hall : lex text = l.readAll.map (taken ++ ·) := hpasses.readAll_eq
  refine ⟨hstands, hstands.atEnd_iff, ?_, ⟨l.serve_peek, rfl⟩, ?_, ?_, hall.symm, ?_, ?_⟩
  · intro later
    exact (l.serveAll_passes later).position_le
  · intro s l' hread
    exact ⟨serve_read hread, position_lt_of_read hread⟩
  · intro e hread
    exact serveAll_of_error hread
  · apply readAllWithin_eq
    rw [hstands.utf8ByteSize_eq]
    exact Nat.le_add_left _ _
  · intro symbols hsymbols
    rw [hall] at hsymbols
    obtain ⟨left, hleft, rfl⟩ := map_eq_ok.1 hsymbols
    rw [← readAll_eq_nil, hleft, Except.ok.injEq, List.self_eq_append_right]

/-- The third read comes too late, and so does all that is asked after it. -/
theorem serveAll_eq_lex_spent :
    let requests : List Request := [.peek, .read, .atEnd, .read, .read]
    let l := ((ofText "a ∧").serveAll requests).2
    lex "a ∧" = .ok [⟨.var, "a"⟩, ⟨.and, "∧"⟩] ∧
      (ofText "a ∧").taken requests = [⟨.var, "a"⟩, ⟨.and, "∧"⟩] ∧ l.atEnd ∧
      ∀ later, l.serveAll later = (later.map (Request.refusal l ⟨5, '\x00'⟩), l) := by
  intro requests l
  have hlex : lex "a ∧" = .ok [⟨.var, "a"⟩, ⟨.and, "∧"⟩] := toOption_eq_some.1 (by decide +kernel)
  have htaken : (ofText "a ∧").taken requests = [⟨.var, "a"⟩, ⟨.and, "∧"⟩] := by decide +kernel
  have hread : l.read = .error ⟨5, '\x00'⟩ := by rfl
  obtain ⟨_, _, _, _, _, hrefused, _, _, hend⟩ := serveAll_eq_lex "a ∧" requests
  exact ⟨hlex, htaken, (hend _ hlex).2 htaken, hrefused _ hread⟩

end Lexer

end Propositional
