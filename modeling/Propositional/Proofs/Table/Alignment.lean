import Propositional.Proofs.Expression.RoundTrip
import Propositional.Proofs.Expression.Structure
import Propositional.Proofs.Table.Iteration
import Propositional.Proofs.Table.Tsv
import Propositional.Proofs.Text.Separators
import Propositional.Proofs.Text.Trim

/-!
# Aligned tables

The lines of a table with columns are equally long and have their separators at the same places,
and the cells are found again between them. This takes headers that are not empty and contain no
bar, as the written forms of formulas that were read are.
-/

namespace Propositional

open Text

namespace Table

def lines (text : String) : List (List Char) :=
  text.toList.splitOn '\n'

/-- Headers that tell where their columns end, and rows of digits with one below each. -/
structure Legible (t : Table) : Prop where
  header_ne : t.header ≠ []
  header : ∀ cell ∈ t.header, cell ≠ "" ∧ IsCell cell ∧ '|' ∉ cell.toList
  rows : ∀ row ∈ t.rows, row.length = t.header.length ∧ ∀ c ∈ row, c = '0' ∨ c = '1'

/-- The widths of the columns. -/
def widths (t : Table) : List Nat :=
  t.header.map String.length

def headerLine (t : Table) : List Char :=
  (joint ' ' '|').intercalate (t.header.map String.toList)

def rule (t : Table) : List Char :=
  (joint '-' '+').intercalate (t.widths.map fun w => List.replicate w '-')

/-- The cells of a row, filled up to the widths of their columns. -/
def padded (t : Table) (row : List Char) : List (List Char) :=
  List.zipWith (fun w c => (centre w c).toList) t.widths row

def rowLine (t : Table) (row : List Char) : List Char :=
  (joint ' ' '|').intercalate (t.padded row)

variable {t other : Table} {row : List Char} {c : Char} {w : Nat}

theorem eq_of_parts (hheader : other.header = t.header) (hrows : other.rows = t.rows) :
    other = t := by
  cases t
  cases other
  exact congrArg₂ mk hheader hrows

/-! ## Cells -/

theorem mem_centre {d : Char} (h : d ∈ (centre w c).toList) : d = c ∨ d = ' ' := by
  simp only [centre, String.toList_ofList, List.mem_append, List.mem_cons, List.mem_replicate] at h
  grind

theorem length_centre (hw : 0 < w) (c : Char) : (centre w c).toList.length = w := by
  simp only [centre, String.toList_ofList, List.length_append, List.length_cons,
    List.length_replicate]
  omega

theorem trim_centre (hc : isBlank c = false) : trim (centre w c).toList = [c] := by
  have hblank : ∀ n, ∀ d ∈ List.replicate n ' ', isBlank d := by
    intro n d hd
    rw [List.eq_of_mem_replicate hd]
    decide
  have hpadded : Padded [c] (centre w c).toList :=
    ⟨List.replicate ((w - 1) / 2) ' ', List.replicate (w - 1 - (w - 1) / 2) ' ', hblank _, hblank _,
      by simp [centre]⟩
  exact hpadded.trim ⟨by simpa using hc, by simpa using hc⟩

theorem map_length_header (t : Table) :
    (t.header.map String.toList).map List.length = t.widths := by
  simp [widths, Function.comp_def, String.length_toList]

theorem map_length_rule (t : Table) :
    (t.widths.map fun w => List.replicate w '-').map List.length = t.widths := by
  simp [Function.comp_def]

/-- A digit is nothing that lines or cells are told apart by. -/
theorem digit_legible (h : c = '0' ∨ c = '1') :
    isBlank c = false ∧ c ≠ '|' ∧ c ≠ '\t' ∧ c ≠ '\n' := by
  rcases h with rfl | rfl <;> decide

namespace Legible

theorem width_pos (h : t.Legible) (hw : w ∈ t.widths) : 0 < w := by
  obtain ⟨cell, hcell, rfl⟩ := List.mem_map.1 hw
  refine Nat.pos_of_ne_zero fun hzero => (h.header cell hcell).1 ?_
  simpa using hzero

theorem mem_padded (h : t.Legible) (hrow : row ∈ t.rows) {cell : List Char}
    (hcell : cell ∈ t.padded row) {d : Char} (hd : d ∈ cell) : d = '0' ∨ d = '1' ∨ d = ' ' := by
  obtain ⟨k, hk, rfl⟩ := List.mem_iff_getElem.1 hcell
  simp only [padded, List.getElem_zipWith] at hd
  rcases mem_centre hd with rfl | rfl
  · exact ((h.rows row hrow).2 _ (List.getElem_mem _)).imp_right .inl
  · exact .inr (.inr rfl)

/-- A row is as wide as the header, column by column. -/
theorem map_length_padded (h : t.Legible) (hrow : row ∈ t.rows) :
    (t.padded row).map List.length = t.widths := by
  have hlength : row.length = t.widths.length := by
    rw [(h.rows row hrow).1, widths, List.length_map]
  apply List.ext_getElem
  · simp [padded, hlength]
  · intro k hk hk'
    simp only [padded, List.getElem_map, List.getElem_zipWith]
    exact length_centre (h.width_pos (List.getElem_mem _)) _

theorem map_trim_padded (h : t.Legible) (hrow : row ∈ t.rows) :
    (t.padded row).map trim = row.map fun c => [c] := by
  obtain ⟨hlength, hdigits⟩ := h.rows row hrow
  apply List.ext_getElem
  · simp [padded, widths, hlength]
  · intro k hk hk'
    simp only [padded, List.getElem_map, List.getElem_zipWith]
    exact trim_centre (digit_legible (hdigits _ (List.getElem_mem _))).1

/-! ## Lines -/

theorem not_mem_headerLine (h : t.Legible) : '\n' ∉ t.headerLine := by
  intro hmem
  rcases mem_intercalate hmem with hmem | ⟨part, hpart, hmem⟩
  · exact absurd hmem (by decide)
  · obtain ⟨cell, hcell, rfl⟩ := List.mem_map.1 hpart
    exact (h.header cell hcell).2.1.2 hmem

theorem not_mem_rule (t : Table) : '\n' ∉ t.rule := by
  intro hmem
  rcases mem_intercalate hmem with hmem | ⟨part, hpart, hmem⟩
  · exact absurd hmem (by decide)
  · obtain ⟨w, -, rfl⟩ := List.mem_map.1 hpart
    exact absurd (List.eq_of_mem_replicate hmem) (by decide)

theorem not_mem_rowLine (h : t.Legible) (hrow : row ∈ t.rows) : '\n' ∉ t.rowLine row := by
  intro hmem
  rcases mem_intercalate hmem with hmem | ⟨part, hpart, hmem⟩
  · exact absurd hmem (by decide)
  · exact absurd (h.mem_padded hrow hpart hmem) (by decide)

theorem lines_text (h : t.Legible) :
    lines t.text = t.headerLine :: t.rule :: t.rows.map t.rowLine := by
  have htext : t.text.toList =
      ['\n'].intercalate (t.headerLine :: t.rule :: t.rows.map t.rowLine) := by
    simp only [text, headerLine, rule, widths, String.toList_intercalate, List.map_cons,
      List.map_map, Function.comp_def, String.toList_ofList, List.map_zipWith]
    rfl
  rw [lines, htext]
  refine List.splitOn_intercalate '\n' ?_ (List.cons_ne_nil _ _)
  rintro line (_ | ⟨_, _ | ⟨_, hline⟩⟩)
  · exact h.not_mem_headerLine
  · exact not_mem_rule t
  · obtain ⟨row, hrow, rfl⟩ := List.mem_map.1 hline
    exact h.not_mem_rowLine hrow

theorem length_line (h : t.Legible) : ∀ line ∈ lines t.text, line.length = span t.widths := by
  rw [h.lines_text]
  rintro line (_ | ⟨_, _ | ⟨_, hline⟩⟩)
  · rw [headerLine, length_intercalate, map_length_header]
  · rw [rule, length_intercalate, map_length_rule]
  · obtain ⟨row, hrow, rfl⟩ := List.mem_map.1 hline
    rw [rowLine, length_intercalate, h.map_length_padded hrow]

/-! ## Columns -/

theorem not_mem_header (h : t.Legible) : ∀ part ∈ t.header.map String.toList, '|' ∉ part := by
  intro part hpart
  obtain ⟨cell, hcell, rfl⟩ := List.mem_map.1 hpart
  exact (h.header cell hcell).2.2

theorem not_mem_padded (h : t.Legible) (hrow : row ∈ t.rows) : ∀ part ∈ t.padded row, '|' ∉ part :=
  fun _ hpart hmem => absurd (h.mem_padded hrow hpart hmem) (by decide)

theorem startsAt_headerLine (h : t.Legible) {p : Nat} :
    StartsAt " | ".toList t.headerLine p ↔ p ∈ cuts t.widths := by
  have hcuts := startsAt_intercalate (a := ' ') (p := p) (by decide) h.not_mem_header
  rwa [map_length_header] at hcuts

theorem startsAt_rule (t : Table) {p : Nat} :
    StartsAt "-+-".toList t.rule p ↔ p ∈ cuts t.widths := by
  have hmark : ∀ part ∈ t.widths.map fun w => List.replicate w '-', '+' ∉ part := by
    intro part hpart hmem
    obtain ⟨w, -, rfl⟩ := List.mem_map.1 hpart
    exact absurd (List.eq_of_mem_replicate hmem) (by decide)
  have hcuts := startsAt_intercalate (a := '-') (p := p) (by decide) hmark
  rwa [map_length_rule] at hcuts

theorem startsAt_rowLine (h : t.Legible) (hrow : row ∈ t.rows) {p : Nat} :
    StartsAt " | ".toList (t.rowLine row) p ↔ p ∈ cuts t.widths := by
  have hcuts := startsAt_intercalate (a := ' ') (p := p) (by decide) (h.not_mem_padded hrow)
  rwa [h.map_length_padded hrow] at hcuts

theorem pieces_headerLine (h : t.Legible) :
    (pieces " | ".toList t.headerLine).map String.ofList = t.header := by
  have hpieces := pieces_intercalate (a := ' ') (by decide) (by simpa using h.header_ne)
    h.not_mem_header
  have hback : (t.header.map String.toList).map String.ofList = t.header := by
    simp [Function.comp_def]
  exact (congrArg (List.map String.ofList) hpieces).trans hback

theorem pieces_rowLine (h : t.Legible) (hrow : row ∈ t.rows) :
    (pieces " | ".toList (t.rowLine row)).map trim = row.map fun c => [c] := by
  have hne : t.padded row ≠ [] := by
    intro hnil
    have hwidths := h.map_length_padded hrow
    rw [hnil] at hwidths
    exact h.header_ne (by simpa [widths] using hwidths.symm)
  have hpieces := pieces_intercalate (a := ' ') (by decide) hne (h.not_mem_padded hrow)
  exact (congrArg (List.map trim) hpieces).trans (h.map_trim_padded hrow)

/-! ## Reading back -/

theorem cells_tsv (h : t.Legible) :
    cells t.tsv = t.header :: t.rows.map fun row => row.map Char.toString := by
  refine Table.cells_tsv h.header_ne (fun cell hcell => (h.header cell hcell).2.1) ?_
  intro row hrow
  obtain ⟨hlength, hdigits⟩ := h.rows row hrow
  refine ⟨?_, fun c hc => (digit_legible (hdigits c hc)).2.2⟩
  rw [← List.length_pos_iff, hlength, List.length_pos_iff]
  exact h.header_ne

theorem eq_of_tsv_eq (h : t.Legible) (hother : other.Legible) (heq : other.tsv = t.tsv) :
    other = t := by
  have hcells := hother.cells_tsv.symm.trans ((congrArg cells heq).trans h.cells_tsv)
  obtain ⟨hheader, hrows⟩ := List.cons.inj hcells
  have hinj : Function.Injective fun row : List Char => row.map Char.toString :=
    List.map_injective_iff.2 fun c d hcd => by simpa using hcd
  exact eq_of_parts hheader (hinj.list_map hrows)

theorem eq_of_text_eq (h : t.Legible) (hother : other.Legible) (heq : other.text = t.text) :
    other = t := by
  have hlines := hother.lines_text.symm.trans ((congrArg lines heq).trans h.lines_text)
  obtain ⟨hheader, hlines⟩ := List.cons.inj hlines
  obtain ⟨-, hrows⟩ := List.cons.inj hlines
  have hread (t : Table) (h : t.Legible) :
      (t.rows.map t.rowLine).map (fun line => (pieces " | ".toList line).map trim) =
        t.rows.map fun row => row.map fun c => [c] := by
    rw [List.map_map]
    exact List.map_congr_left fun row hrow => h.pieces_rowLine hrow
  have hcells := (hread other hother).symm.trans ((congrArg _ hrows).trans (hread t h))
  have hinj : Function.Injective fun row : List Char => row.map fun c => [c] :=
    List.map_injective_iff.2 fun c d hcd => by simpa using hcd
  refine eq_of_parts ?_ (hinj.list_map hcells)
  rw [← hother.pieces_headerLine, ← h.pieces_headerLine, hheader]

end Legible

end Table

/-! ## Finished tables -/

namespace Tabulation

variable {t : Tabulation} {e : Expression} {rows : Rows e.graph} {table : Table} {n : Nat}

theorem exists_rows_of_finish (h : (t.finish e).1 = .ok table) : ∃ rows, t.rows e = .ok rows := by
  cases hrows : t.rows e with
  | error =>
    unfold finish at h
    rw [hrows] at h
    cases h
  | ok rows => exact ⟨rows, rfl⟩

/-- A table has a row for each list of bits, and each row a cell for each column. -/
theorem table_of_finish (hrows : t.rows e = .ok rows) (h : (t.finish e).1 = .ok table) :
    table.header = rows.header ∧ table.rows.length = 2 ^ t.vars.length ∧
    ∀ row ∈ table.rows, row.length = table.header.length ∧ ∀ c ∈ row, c = '0' ∨ c = '1' := by
  have hposition := (rows_eq_ok hrows).2.2.2
  rw [finish_eq hrows, Rows.collect_of_start hposition] at h
  obtain ⟨found, hfound, rfl⟩ := map_eq_ok.1 h
  have hrow : ∀ r ∈ List.range (2 ^ rows.vars.length), ∀ row, rows.rowAt r = .ok row →
      row.length = rows.header.length := by
    intro r hr row hrow
    obtain ⟨w, -, hrowAt⟩ := rows.exists_rowAt_eq (List.mem_range.1 hr)
    rw [hrowAt] at hrow
    obtain ⟨values, hvalues, rfl⟩ := map_eq_ok.1 hrow
    have hlength := (results_of_mapM_eq_ok (P := fun _ => True) hvalues fun _ _ _ _ => trivial).1
    simp [Rows.header, hlength]
  obtain ⟨hcount, hlengths⟩ := results_of_mapM_eq_ok (mapError_eq_ok.1 hfound) hrow
  refine ⟨rfl, ?_, ?_⟩
  · rw [List.length_map, hcount, List.length_range, length_vars_of_rows hrows]
  · intro row hmem
    obtain ⟨bits, hbits, rfl⟩ := List.mem_map.1 hmem
    refine ⟨(List.length_map _).trans (hlengths bits hbits), ?_⟩
    intro c hc
    obtain ⟨b, -, rfl⟩ := List.mem_map.1 hc
    cases b
    · exact .inl rfl
    · exact .inr rfl

/-- A table over `n` variables with a column at least, which is finished for an expression that
was read, whatever its variables hold. -/
def Finished (n : Nat) (table : Table) : Prop :=
  ∃ (text : String) (e : Expression) (v : Valuation e.graph) (t : Tabulation),
    Expression.ofText text = .ok e ∧ t.vars.length = n ∧
      (t.finish (e.withValues v)).1 = .ok table ∧ table.header ≠ []

theorem Finished.legible (h : Finished n table) :
    table.Legible ∧ table.rows.length = 2 ^ n := by
  obtain ⟨text, e, v, t, he, rfl, hfinish, hne⟩ := h
  obtain ⟨f, hf, rfl⟩ := Expression.ofText_eq_ok he
  obtain ⟨rows, hrows⟩ := exists_rows_of_finish hfinish
  obtain ⟨hheader, hcount, hcells⟩ := table_of_finish hrows hfinish
  refine ⟨⟨hne, ?_, hcells⟩, hcount⟩
  intro cell hcell
  rw [hheader] at hcell
  obtain ⟨i, -, rfl⟩ := List.mem_map.1 hcell
  have hnames : ∀ label ∈ ((Expression.ofFormula f).graph.formula i).labels, IsName label :=
    fun label hl => Formula.isName_of_ofText hf ((Expression.part_formula f i).labels_subset hl)
  exact ⟨Formula.render_ne_empty hnames,
    ⟨Formula.not_mem_render hnames (by decide) (by decide),
      Formula.not_mem_render hnames (by decide) (by decide)⟩,
    Formula.not_mem_render hnames (by decide) (by decide)⟩

/-- Both texts of a table with columns can be read back. The aligned one has equally long lines, a
header, a rule and one for each row, with the separators at the same places in all of them; what
stands between them are the headers and, with blanks around them, the cells. So no two tables have
the same text. -/
theorem Finished.aligned (h : Finished n table) :
    (∃ header rule rows, Table.lines table.text = header :: rule :: rows ∧
      (Table.lines table.text).length = 2 + 2 ^ n ∧
      (∀ line ∈ Table.lines table.text, line.length = header.length) ∧
      (∀ p, StartsAt "-+-".toList rule p ↔ StartsAt " | ".toList header p) ∧
      (∀ row ∈ rows, ∀ p, StartsAt " | ".toList row p ↔ StartsAt " | ".toList header p) ∧
      (pieces " | ".toList header).map String.ofList = table.header ∧
      rows.map (fun row => (pieces " | ".toList row).map trim) =
        table.rows.map fun row => row.map fun c => [c]) ∧
    Table.cells table.tsv = table.header :: table.rows.map (fun row => row.map Char.toString) ∧
    ∀ m other, Finished m other →
      (other.text = table.text → other = table) ∧ (other.tsv = table.tsv → other = table) := by
  obtain ⟨hlegible, hcount⟩ := h.legible
  refine ⟨⟨_, _, _, hlegible.lines_text, ?_, ?_, ?_, ?_, hlegible.pieces_headerLine, ?_⟩,
    hlegible.cells_tsv, ?_⟩
  · rw [hlegible.lines_text, List.length_cons, List.length_cons, List.length_map, hcount]
    omega
  · have hheader : table.headerLine ∈ Table.lines table.text := by
      simp [hlegible.lines_text]
    intro line hline
    rw [hlegible.length_line line hline, hlegible.length_line _ hheader]
  · intro p
    exact (Table.Legible.startsAt_rule table).trans hlegible.startsAt_headerLine.symm
  · intro line hline p
    obtain ⟨row, hrow, rfl⟩ := List.mem_map.1 hline
    exact (hlegible.startsAt_rowLine hrow).trans hlegible.startsAt_headerLine.symm
  · rw [List.map_map]
    exact List.map_congr_left fun row hrow => hlegible.pieces_rowLine hrow
  · intro m other hother
    exact ⟨hlegible.eq_of_text_eq hother.legible.1, hlegible.eq_of_tsv_eq hother.legible.1⟩

/-- The table of `A ∨ B` with a column for the whole formula only. -/
theorem Finished.aligned_disjunction :
    let e := Expression.ofFormula (.binary .or (.var "A") (.var "B"))
    ∃ table, ((e.tabulation.rootOnly e).finish e).1 = .ok table ∧ Finished 2 table ∧
      (Table.lines table.text).length = 6 := by
  intro e
  have he : Expression.ofText "A ∨ B" = .ok e := Expression.ofText_of_toOption (by decide +kernel)
  have hheader : ((e.tabulation.rootOnly e).finish e).1.toOption.map (·.header) =
      some ["A", "B", "A ∨ B"] := by
    decide +kernel
  obtain ⟨table, htable, htitles⟩ := Option.map_eq_some_iff.1 hheader
  have hfinish := toOption_eq_some.1 htable
  have hfinished : Finished 2 table :=
    ⟨"A ∨ B", e, e.values, e.tabulation.rootOnly e, he, by decide +kernel, hfinish,
      by simp [htitles]⟩
  obtain ⟨⟨_, _, _, _, hcount, _⟩, _⟩ := hfinished.aligned
  exact ⟨table, hfinish, hfinished, hcount⟩

end Tabulation

end Propositional
