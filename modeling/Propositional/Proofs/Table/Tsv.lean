import Propositional.Table

/-!
# Reading tables back

The cells of a text of lines separated by tabs. No cell of a table is lost in its text if the
cells contain neither tabs nor line ends and every line has a cell.
-/

namespace Propositional.Table

/-- The cells of a text, line by line. -/
def cells (text : String) : List (List String) :=
  (text.toList.splitOn '\n').map fun line => (line.splitOn '\t').map String.ofList

/-- Text that can be the content of a cell. -/
def IsCell (text : String) : Prop :=
  '\t' ∉ text.toList ∧ '\n' ∉ text.toList

theorem mem_intercalate {α : Type} {sep : List α} {parts : List (List α)} {a : α}
    (h : a ∈ sep.intercalate parts) : a ∈ sep ∨ ∃ part ∈ parts, a ∈ part := by
  induction parts with
  | nil => cases h
  | cons part parts ih =>
    cases parts with
    | nil => exact .inr ⟨part, List.mem_cons_self, by simpa using h⟩
    | cons next parts =>
      rw [List.intercalate_cons_cons, List.mem_append, List.mem_append] at h
      rcases h with (h | h) | h
      · exact .inr ⟨part, List.mem_cons_self, h⟩
      · exact .inl h
      · exact (ih h).imp_right fun ⟨p, hp, ha⟩ => ⟨p, List.mem_cons_of_mem _ hp, ha⟩

/-- Parts that do not contain the separator are found again. -/
theorem splitOn_intercalate {sep : String} {c : Char} (hsep : sep.toList = [c])
    {parts : List String} (hne : parts ≠ []) (h : ∀ part ∈ parts, c ∉ part.toList) :
    (sep.intercalate parts).toList.splitOn c = parts.map String.toList := by
  have hparts : ∀ part ∈ parts.map String.toList, c ∉ part := by simpa using h
  rw [String.toList_intercalate, hsep, List.splitOn_intercalate c hparts (by simpa using hne)]

theorem not_mem_line {line : List String} (h : ∀ cell ∈ line, IsCell cell) :
    '\n' ∉ ("\t".intercalate line).toList := by
  rw [String.toList_intercalate]
  intro hmem
  rcases mem_intercalate hmem with hmem | ⟨part, hpart, hmem⟩
  · exact absurd hmem (by decide)
  · obtain ⟨cell, hcell, rfl⟩ := List.mem_map.1 hpart
    exact (h cell hcell).2 hmem

/-- Lines of cells are found again. -/
theorem cells_intercalate {lines : List (List String)} (hne : lines ≠ [])
    (h : ∀ line ∈ lines, line ≠ [] ∧ ∀ cell ∈ line, IsCell cell) :
    cells ("\n".intercalate (lines.map ("\t".intercalate ·))) = lines := by
  have hlines : ∀ text ∈ lines.map ("\t".intercalate ·), '\n' ∉ text.toList := by
    intro text htext
    obtain ⟨line, hline, rfl⟩ := List.mem_map.1 htext
    exact not_mem_line (h line hline).2
  have hline : ∀ line ∈ lines,
      (("\t".intercalate line).toList.splitOn '\t').map String.ofList = line := by
    intro line hline
    obtain ⟨hcells, hcell⟩ := h line hline
    rw [splitOn_intercalate (c := '\t') rfl hcells fun cell hmem => (hcell cell hmem).1,
      List.map_map]
    simp [Function.comp_def]
  rw [cells, splitOn_intercalate (c := '\n') rfl (by simpa using hne) hlines, List.map_map,
    List.map_map]
  exact (List.map_congr_left hline).trans (List.map_id _)

/-- The end of the last line starts no further cell. -/
theorem cells_append_newline (text : String) : cells (text ++ "\n") = cells text ++ [[""]] := by
  have hlist : (text ++ "\n").toList = text.toList ++ '\n' :: [] := String.toList_append
  rw [cells, hlist, List.splitOn_append_cons_self, List.map_append]
  rfl

variable {t : Table}

/-- The cells of a table are found again in its text. -/
theorem cells_tsv (hheader : t.header ≠ []) (hcells : ∀ cell ∈ t.header, IsCell cell)
    (hrows : ∀ row ∈ t.rows, row ≠ [] ∧ ∀ c ∈ row, c ≠ '\t' ∧ c ≠ '\n') :
    cells t.tsv = t.header :: t.rows.map fun row => row.map Char.toString := by
  have htsv : t.tsv = "\n".intercalate
      ((t.header :: t.rows.map fun row => row.map Char.toString).map ("\t".intercalate ·)) := by
    rw [List.map_cons, List.map_map]
    rfl
  rw [htsv, cells_intercalate (List.cons_ne_nil _ _)]
  rintro line (_ | ⟨_, hline⟩)
  · exact ⟨hheader, hcells⟩
  · obtain ⟨row, hrow, rfl⟩ := List.mem_map.1 hline
    obtain ⟨hne, hchars⟩ := hrows row hrow
    refine ⟨by simpa using hne, ?_⟩
    intro cell hcell
    obtain ⟨c, hc, rfl⟩ := List.mem_map.1 hcell
    obtain ⟨htab, hend⟩ := hchars c hc
    simp [IsCell, htab.symm, hend.symm]

end Propositional.Table
