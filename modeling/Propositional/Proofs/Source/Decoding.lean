import Propositional.Proofs.Result
import Propositional.Proofs.Text.Splitting
import Propositional.Proofs.Text.Trim
import Propositional.Source

/-!
# Decoding lines

Bytes are split into lines before they are decoded, and every line has to be text by itself. As the
byte of a newline is part of no other character, this comes to the same as decoding all of them and
splitting the text.
-/

namespace Propositional.Source

open Text

variable {α β : Type} {comment : Char} {bytes : ByteArray} {line : List UInt8}
  {cause : SourceError} {c : Char} {text : List Char}

/-- The expressions of a text, one a line. -/
def expressions (comment : Char) (text : List Char) : List String :=
  expressionsOf comment (text.splitOn '\n')

/-! ## The byte of a newline -/

theorem eq_newline_of_mem_utf8EncodeChar (h : 10 ∈ String.utf8EncodeChar c) : c = '\n' := by
  obtain ⟨i, hi, hbyte⟩ := List.getElem_of_mem h
  -- no byte behind the first one could begin a character
  have hfirst : (String.utf8EncodeChar c)[i].IsUTF8FirstByte := by
    rw [hbyte]
    decide
  obtain rfl := UInt8.isUTF8FirstByte_getElem_utf8EncodeChar.1 hfirst
  -- what begins with a newline is decoded as one
  obtain ⟨rest, hrest⟩ : ∃ rest, String.utf8EncodeChar c = String.utf8EncodeChar '\n' ++ rest := by
    refine ⟨(String.utf8EncodeChar c).drop 1, ?_⟩
    have hdrop := List.drop_eq_getElem_cons hi
    rwa [hbyte] at hdrop
  have hc := ByteArray.utf8DecodeChar?_utf8EncodeChar_append (b := .empty) (c := c)
  rw [hrest, List.toByteArray_append, ByteArray.append_assoc,
    ByteArray.utf8DecodeChar?_utf8EncodeChar_append] at hc
  exact (Option.some.inj hc).symm

/-! ## Lines of bytes -/

@[simp]
theorem endLines_cons_cons (newline : α) (piece next : List α) (pieces : List (List α)) :
    endLines newline (piece :: next :: pieces) =
      (piece ++ [newline]) :: endLines newline (next :: pieces) :=
  rfl

theorem flatten_endLines (newline : α) (pieces : List (List α)) :
    (endLines newline pieces).flatten = [newline].intercalate pieces := by
  fun_induction endLines newline pieces with
  | case1 => rfl
  | case2 last hlast => simp_all
  | case3 last hlast => simp
  | case4 piece pieces hne ih =>
    rw [List.flatten_cons, ih, List.intercalate_cons_of_ne_nil (by simpa using hne)]

/-- Lines end alike before and after an encoding. -/
theorem endLines_map {a : α} {b : β} {f : α → List β} (ha : f a = [b]) (hne : ∀ c, f c ≠ [])
    (pieces : List (List α)) :
    endLines b (pieces.map (·.flatMap f)) = (endLines a pieces).map (·.flatMap f) := by
  induction pieces with
  | nil => rfl
  | cons piece pieces ih =>
    cases pieces with
    | nil => cases piece <;> simp [endLines, hne]
    | cons next pieces =>
      rw [List.map_cons] at ih
      rw [List.map_cons, List.map_cons, endLines_cons_cons, ih, endLines_cons_cons, List.map_cons,
        List.flatMap_append, List.flatMap_singleton, ha]

theorem rawLines_utf8Encode (text : List Char) :
    rawLines text.utf8Encode =
      (endLines '\n' (text.splitOn '\n')).map (·.flatMap String.utf8EncodeChar) := by
  have hnewline : String.utf8EncodeChar '\n' = [10] := by decide
  unfold rawLines List.utf8Encode
  rw [List.data_toByteArray, splitOn_flatMap hnewline fun _ => eq_newline_of_mem_utf8EncodeChar,
    endLines_map hnewline fun _ => String.utf8EncodeChar_ne_nil]

theorem decodeLine_flatMap (text : List Char) :
    decodeLine (text.flatMap String.utf8EncodeChar) = .ok (stripEnd text) := by
  have hvalid : String.fromUTF8? text.utf8Encode = some (String.ofList text) :=
    dif_pos ByteArray.isValidUTF8_utf8Encode
  unfold List.utf8Encode at hvalid
  simp only [decodeLine, hvalid, String.toList_ofList]

theorem decodeLine_eq_error_iff :
    decodeLine line = .error cause ↔ cause = .notText ∧ ¬ line.toByteArray.IsValidUTF8 := by
  by_cases hvalid : line.toByteArray.IsValidUTF8
  · simp [decodeLine, String.fromUTF8?, hvalid]
  · simp [decodeLine, String.fromUTF8?, hvalid, eq_comm]

/-! ## What trimming makes of lines -/

theorem isBlank_newline : ∀ c ∈ ['\n'], isBlank c :=
  List.forall_mem_singleton.2 (by decide)

theorem padded_stripEnd (line : List Char) : Padded (stripEnd line) line := by
  unfold stripEnd
  have hline := List.reverse_reverse line
  split
  next rest hrest =>
    have hend : ∀ c ∈ ['\r', '\n'], isBlank c :=
      List.forall_mem_cons.2 ⟨by decide, isBlank_newline⟩
    exact ⟨[], _, nofun, hend, by simpa [hrest] using hline.symm⟩
  next rest _ hrest =>
    exact ⟨[], _, nofun, isBlank_newline, by simpa [hrest] using hline.symm⟩
  next => exact .refl line

theorem expressionsOf_cons (comment : Char) (line : List Char) (lines : List (List Char)) :
    expressionsOf comment (line :: lines) =
      expressionsOf comment [line] ++ expressionsOf comment lines := by
  unfold expressionsOf
  rw [← List.map_append, ← List.filter_append]
  rfl

theorem expressionsOf_of_padded {inner line : List Char} (h : Padded inner line) :
    expressionsOf comment [line] = expressionsOf comment [inner] := by
  simp only [expressionsOf, List.map_cons, List.map_nil, h.trim_eq]

/-- The ends of lines are blank and make no difference. -/
theorem expressionsOf_endLines (comment : Char) (pieces : List (List Char)) :
    expressionsOf comment ((endLines '\n' pieces).map stripEnd) = expressionsOf comment pieces := by
  induction pieces with
  | nil => rfl
  | cons piece pieces ih =>
    cases pieces with
    | nil =>
      cases piece with
      | nil => rfl
      | cons c piece => exact (expressionsOf_of_padded (padded_stripEnd _)).symm
    | cons next pieces =>
      have hpadded : Padded piece (piece ++ ['\n']) := ⟨[], _, nofun, isBlank_newline, rfl⟩
      rw [endLines_cons_cons, List.map_cons, expressionsOf_cons, ih,
        ← expressionsOf_of_padded (padded_stripEnd _), expressionsOf_of_padded hpadded,
        ← expressionsOf_cons]

/-! ## All bytes together -/

theorem lines_utf8Encode (comment : Char) (text : List Char) :
    Source.lines comment text.utf8Encode = .ok (expressions comment text) := by
  have hdecoded : (rawLines text.utf8Encode).mapM decodeLine =
      .ok ((endLines '\n' (text.splitOn '\n')).map stripEnd) := by
    rw [rawLines_utf8Encode, List.mapM_map]
    exact mapM_eq_ok_map fun line _ => decodeLine_flatMap line
  rw [Source.lines, hdecoded, expressions, ← expressionsOf_endLines]
  rfl

theorem lines_toUTF8 (comment : Char) (content : String) :
    Source.lines comment content.toUTF8 = .ok (expressions comment content.toList) := by
  rw [← lines_utf8Encode, String.utf8Encode_toList]
  rfl

/-- Bytes are text as soon as all their lines are. -/
theorem isValidUTF8_of_rawLines
    (h : ∀ line ∈ rawLines bytes, line.toByteArray.IsValidUTF8) : bytes.IsValidUTF8 := by
  have hflatten : (rawLines bytes).flatten.toByteArray = bytes := by
    rw [rawLines, flatten_endLines, List.intercalate_splitOn]
    ext1
    simp
  rw [← hflatten]
  generalize rawLines bytes = lines at h
  induction lines with
  | nil => exact ByteArray.isValidUTF8_empty
  | cons line lines ih =>
    obtain ⟨hline, hlines⟩ := List.forall_mem_cons.1 h
    rw [List.flatten_cons, List.toByteArray_append]
    exact hline.append (ih hlines)

theorem isValidUTF8_of_lines_eq_ok {texts : List String}
    (h : Source.lines comment bytes = .ok texts) : bytes.IsValidUTF8 := by
  obtain ⟨decoded, hdecoded, -⟩ := bind_eq_ok.1 h
  refine isValidUTF8_of_rawLines fun line hline => ?_
  obtain ⟨text, htext⟩ := forall_mem_of_mapM_eq_ok hdecoded line hline
  by_contra hvalid
  rw [decodeLine_eq_error_iff.2 ⟨rfl, hvalid⟩] at htext
  cases htext

theorem eq_notText_of_lines_eq_error (h : Source.lines comment bytes = .error cause) :
    cause = .notText := by
  rcases bind_eq_error.1 h with h | ⟨_, _, h⟩
  · obtain ⟨line, -, hline⟩ := exists_mem_of_mapM_eq_error h
    exact (decodeLine_eq_error_iff.1 hline).1
  · cases h

theorem lines_eq_ok_iff {texts : List String} :
    Source.lines comment bytes = .ok texts ↔
      ∃ content : String, content.toUTF8 = bytes ∧
        expressions comment content.toList = texts := by
  constructor
  · intro h
    obtain ⟨text, rfl⟩ := isValidUTF8_of_lines_eq_ok h
    rw [lines_utf8Encode, Except.ok.injEq] at h
    exact ⟨String.ofList text, rfl, by rwa [String.toList_ofList]⟩
  · rintro ⟨content, rfl, rfl⟩
    exact lines_toUTF8 comment content

theorem lines_eq_error_iff :
    Source.lines comment bytes = .error cause ↔ cause = .notText ∧ ¬ bytes.IsValidUTF8 := by
  constructor
  · intro h
    refine ⟨eq_notText_of_lines_eq_error h, ?_⟩
    rintro ⟨text, rfl⟩
    rw [lines_utf8Encode] at h
    cases h
  · rintro ⟨rfl, hvalid⟩
    cases h : Source.lines comment bytes with
    | ok texts => exact absurd (isValidUTF8_of_lines_eq_ok h) hvalid
    | error cause => rw [eq_notText_of_lines_eq_error h]

end Propositional.Source
