import Propositional.Proofs.Source.Decoding

/-!
# Lines

Files that hold texts in order, one a line, with blank lines and comments among them and blanks
around each. Such a file is read as these texts, and what any file is read as can be written back
one a line.
-/

namespace Propositional.Source

open Text

/-- A text that can stand in a line: there is something to it, its ends are not blank, and it is
no comment. -/
structure Writable (comment : Char) (text : String) : Prop where
  ne_nil : text.toList ≠ []
  tight : Tight text.toList
  single : '\n' ∉ text.toList
  head : text.toList.head? ≠ some comment

theorem writable_iff {comment : Char} {text : String} :
    Writable comment text ↔
      text.toList ≠ [] ∧ Tight text.toList ∧ '\n' ∉ text.toList ∧
        text.toList.head? ≠ some comment :=
  ⟨fun h => ⟨h.ne_nil, h.tight, h.single, h.head⟩, fun ⟨hne, htight, hsingle, hhead⟩ =>
    ⟨hne, htight, hsingle, hhead⟩⟩

instance (comment : Char) (text : String) : Decidable (Writable comment text) :=
  decidable_of_iff _ writable_iff.symm

/-- Lines that hold texts in order, blank lines, and comments. -/
inductive Lists (comment : Char) : List (List Char) → List String → Prop where
  | nil : Lists comment [] []
  | blank {line lines texts} :
      (∀ c ∈ line, isBlank c) → '\n' ∉ line → Lists comment lines texts →
      Lists comment (line :: lines) texts
  | comment {line lines texts} :
      (trim line).head? = some comment → '\n' ∉ line → Lists comment lines texts →
      Lists comment (line :: lines) texts
  | text {line text lines texts} :
      Writable comment text → Padded text.toList line → '\n' ∉ line →
      Lists comment lines texts →
      Lists comment (line :: lines) (text :: texts)

/-- A content that lists texts. The last line may come to an end or not. -/
def Writes (comment : Char) (content : String) (texts : List String) : Prop :=
  ∃ lines, Lists comment lines texts ∧ content.toList = ['\n'].intercalate lines

/-- The bytes of a file of the given path, compressed if the path says so, are those of a text. -/
def Holds (path : String) (bytes : ByteArray) (content : String) : Prop :=
  if isCompressed path then Gzip.decode bytes = { bytes := content.toUTF8, fault := none }
  else bytes = content.toUTF8

variable {comment : Char} {path content : String} {bytes : ByteArray}
  {lines : List (List Char)} {texts : List String}

theorem Lists.single (h : Lists comment lines texts) : ∀ line ∈ lines, '\n' ∉ line := by
  induction h with
  | nil => nofun
  | blank _ hline _ ih | comment _ hline _ ih | text _ _ hline _ ih =>
    exact List.forall_mem_cons.2 ⟨hline, ih⟩

/-- Nothing but the texts is left of the lines. -/
theorem Lists.texts_eq (h : Lists comment lines texts) : expressionsOf comment lines = texts := by
  unfold expressionsOf
  induction h with
  | nil => rfl
  | @blank line _ _ hblank _ _ ih =>
    rw [List.map_cons, trim_eq_nil_iff.2 hblank]
    exact ih
  | comment hhead _ _ ih =>
    rw [List.map_cons, List.filter_cons_of_neg (by simp [hhead]), ih]
  | text hwritable hpadded _ _ ih =>
    have hkept := hwritable.ne_nil
    rw [List.map_cons, hpadded.trim hwritable.tight,
      List.filter_cons_of_pos (by simpa [hkept] using hwritable.head), List.map_cons, ih,
      String.ofList_toList]

theorem expressions_of_writes (h : Writes comment content texts) :
    expressions comment content.toList = texts := by
  obtain ⟨lines, hlines, hcontent⟩ := h
  unfold expressions
  rw [hcontent]
  cases lines with
  | nil =>
    -- no lines at all are written like a single empty one
    cases hlines
    rfl
  | cons line lines =>
    rw [List.splitOn_intercalate '\n' hlines.single (List.cons_ne_nil _ _)]
    exact hlines.texts_eq

theorem read_of_holds (h : Holds path bytes content) :
    read comment path (.ok bytes) = .ok (expressions comment content.toList) := by
  unfold Holds at h
  split at h
  next hcompressed => rw [read, if_pos hcompressed, h, linesOfStream, lines_toUTF8]
  next hplain => rw [read, if_neg hplain, h, lines_toUTF8]

theorem lists_of_writable (h : ∀ text ∈ texts, Writable comment text) :
    Lists comment (texts.map String.toList) texts := by
  induction texts with
  | nil => exact .nil
  | cons text texts ih =>
    obtain ⟨htext, htexts⟩ := List.forall_mem_cons.1 h
    exact .text htext (.refl _) htext.single (ih htexts)

theorem writes_intercalate (h : ∀ text ∈ texts, Writable comment text) :
    Writes comment ("\n".intercalate texts) texts :=
  ⟨_, lists_of_writable h, String.toList_intercalate⟩

/-- Whatever can stand in lines is listed by some content. -/
theorem exists_writes (h : ∀ text ∈ texts, Writable comment text) :
    ∃ content, Writes comment content texts :=
  ⟨_, writes_intercalate h⟩

/-! ## Reading again -/

/-- What has been read can stand in a line. -/
theorem writable_of_mem_expressions {text : String} {content : List Char}
    (h : text ∈ expressions comment content) : Writable comment text := by
  unfold expressions expressionsOf at h
  obtain ⟨kept, hkept, rfl⟩ := List.mem_map.1 h
  obtain ⟨htrimmed, hkept⟩ := List.mem_filter.1 hkept
  obtain ⟨line, hline, rfl⟩ := List.mem_map.1 htrimmed
  simp only [Bool.and_eq_true, Bool.not_eq_true', List.isEmpty_eq_false_iff, bne_iff_ne] at hkept
  constructor <;> rw [String.toList_ofList]
  · exact hkept.1
  · exact tight_trim line
  · exact fun hc => not_mem_of_mem_splitOn hline (mem_of_mem_trim hc)
  · exact hkept.2

/-- Bytes that are text are read as the lines that hold something, in order. Any other bytes are
refused, wherever they fail. What has been read is read again when it is written one a line. -/
theorem lines_iff (comment : Char) (bytes : ByteArray) :
    (∀ cause, Source.lines comment bytes = .error cause ↔
      cause = .notText ∧ ¬ bytes.IsValidUTF8) ∧
    (∀ texts, Source.lines comment bytes = .ok texts ↔
      ∃ content : String, content.toUTF8 = bytes ∧
        (((content.toList.splitOn '\n').map trim).filter fun line =>
          !line.isEmpty && line.head? != some comment).map String.ofList = texts) ∧
    ∀ texts, Source.lines comment bytes = .ok texts →
      Source.lines comment ("\n".intercalate texts).toUTF8 = .ok texts := by
  refine ⟨fun _ => lines_eq_error_iff, fun _ => lines_eq_ok_iff, fun texts h => ?_⟩
  obtain ⟨content, -, htexts⟩ := lines_eq_ok_iff.1 h
  have hwritable : ∀ text ∈ texts, Writable comment text := fun text htext =>
    writable_of_mem_expressions (htexts ▸ htext)
  rw [lines_toUTF8, expressions_of_writes (writes_intercalate hwritable)]

/-! ## Files that cannot be read -/

/-- What comes of the bytes of a file, up to a fault if there is one. -/
def contentOf (path : String) (bytes : ByteArray) : Gzip.Content :=
  if isCompressed path then Gzip.decode bytes else { bytes, fault := none }

/-- The bytes of the lines that are read: a fault leaves out the one that it shows in. -/
def lineBytes (content : Gzip.Content) : ByteArray :=
  if content.fault.isNone then content.bytes else completeLines content.bytes

/-- Why nothing is read of a file: the system does not give it, its bytes come to a fault, or a line
that comes before this is no text. -/
inductive Fails (path : String) : Except SystemError ByteArray → SourceError → Prop where
  | system (cause : SystemError) : Fails path (.error cause) (.system cause)
  | notText {bytes : ByteArray} :
      ¬ (lineBytes (contentOf path bytes)).IsValidUTF8 →
      Fails path (.ok bytes) .notText
  | stream {bytes : ByteArray} {fault : Gzip.Fault} :
      (contentOf path bytes).fault = some fault →
      (lineBytes (contentOf path bytes)).IsValidUTF8 →
      Fails path (.ok bytes) (.stream fault)

theorem read_ok (comment : Char) (path : String) (bytes : ByteArray) :
    read comment path (.ok bytes) = linesOfStream comment (contentOf path bytes) := by
  rw [read, contentOf]
  split <;> rfl

theorem read_of_fails {given : Except SystemError ByteArray} {cause : SourceError}
    (h : Fails path given cause) : read comment path given = .error cause := by
  cases h with
  | system => rfl
  | @notText bytes hvalid =>
    rw [read_ok, linesOfStream]
    cases hfault : (contentOf path bytes).fault with
    | none =>
      simp only [lineBytes, hfault] at hvalid
      exact lines_eq_error_iff.2 ⟨rfl, hvalid⟩
    | some fault =>
      simp only [lineBytes, hfault] at hvalid
      exact bind_eq_error.2 (.inl (map_eq_error.2 (lines_eq_error_iff.2 ⟨rfl, hvalid⟩)))
  | @stream bytes fault hfault hvalid =>
    simp only [lineBytes, hfault] at hvalid
    rw [read_ok, linesOfStream, hfault]
    cases hlines : Source.lines comment (completeLines (contentOf path bytes).bytes) with
    | ok => exact bind_eq_error.2 (.inr ⟨(), rfl, rfl⟩)
    | error cause => exact absurd hvalid (lines_eq_error_iff.1 hlines).2

/-- A file fails or holds a text. -/
theorem fails_or_holds (path : String) (given : Except SystemError ByteArray) :
    (∃ cause, Fails path given cause) ∨
      ∃ bytes content, given = .ok bytes ∧ Holds path bytes content := by
  cases given with
  | error cause => exact .inl ⟨_, .system cause⟩
  | ok bytes =>
    by_cases hvalid : (lineBytes (contentOf path bytes)).IsValidUTF8
    · cases hfault : (contentOf path bytes).fault with
      | some fault => exact .inl ⟨_, .stream hfault hvalid⟩
      | none =>
        simp only [lineBytes, hfault] at hvalid
        obtain ⟨text, htext⟩ := hvalid
        refine .inr ⟨bytes, String.ofList text, rfl, ?_⟩
        unfold Holds
        unfold contentOf at hfault htext
        split
        next hcompressed =>
          rw [if_pos hcompressed] at hfault htext
          exact congrArg₂ Gzip.Content.mk htext hfault
        next hplain =>
          rw [if_neg hplain] at htext
          exact htext
    · exact .inl ⟨_, .notText hvalid⟩

end Propositional.Source
