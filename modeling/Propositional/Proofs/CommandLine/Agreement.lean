import Propositional.Proofs.Assignment.Writing
import Propositional.Proofs.CommandLine.Blocks
import Propositional.Proofs.Table.Tsv

/-!
# Values and tables

To evaluate an expression under an assignment prints the digit that its table shows last in the
row of the assignment. The row is found again in the printed lines by its number.
-/

namespace Propositional

open Grammar

/-! ## The last column -/

namespace Expression

/-- The last column is that of the whole formula. Only a constant has no column of its own. -/
theorem getLast?_columns {f : Formula} {o : CommandLine.Options}
    (h : o.rootOnly = true ∨ ∀ b, f ≠ .constant b) :
    ∃ i, (o.columns (ofFormula f)).getLast? = some i ∧ (ofFormula f).graph.formula i = f := by
  unfold CommandLine.Options.columns CommandLine.Options.nodes
  cases hroot : o.rootOnly with
  | true => exact ⟨_, List.getLast?_concat, formula_root f⟩
  | false =>
    rw [hroot] at h
    replace h := h.resolve_left Bool.false_ne_true
    refine Option.map_eq_some_iff.1 ?_
    -- a variable is a column anyway, and the last compound part of any other formula is itself
    rw [← List.getLast?_map, if_neg Bool.false_ne_true, List.map_append, map_formula_subexpressions]
    cases f with
    | constant b => exact absurd rfl (h b)
    | var label =>
      have hvars : ((ofFormula (.var label)).vars.map (·.id)).map
          (ofFormula (.var label)).graph.formula = [.var label] := by
        rw [map_formula_vars, labels_ofFormula]
        rfl
      rw [hvars]
      rfl
    | negation f =>
      rw [Formula.compounds, ← List.append_assoc]
      exact List.getLast?_concat
    | binary op left right =>
      rw [Formula.compounds, ← List.append_assoc]
      exact List.getLast?_concat

theorem columns_ne_nil {f : Formula} {o : CommandLine.Options}
    (h : o.rootOnly = true ∨ ∀ b, f ≠ .constant b) :
    o.columns (ofFormula f) ≠ [] := by
  obtain ⟨i, hi, _⟩ := getLast?_columns h
  exact List.ne_nil_of_mem (List.mem_of_getLast? hi)

end Expression

/-! ## Printed tables -/

theorem Formula.isCell_render {f : Formula} (h : ∀ label ∈ f.labels, IsName label) :
    Table.IsCell f.render :=
  ⟨not_mem_render h (by decide) (by decide), not_mem_render h (by decide) (by decide)⟩

theorem Table.digit_ne (b : Bool) : digit b ≠ '\t' ∧ digit b ≠ '\n' := by
  cases b <;> decide

namespace Expression

/-- All cells of a table of nodes are found again in its text, if there are any. -/
theorem cells_tsv_tableOf {text : String} {f : Formula} (hf : Formula.ofText text = .ok f)
    {columns : List (ofFormula f).graph.Id} (hne : columns ≠ []) :
    Table.cells ((ofFormula f).tableOf columns).tsv =
      columns.map (ofFormula f).render ::
        ((ofFormula f).tableOf columns).rows.map fun row => row.map Char.toString := by
  refine Table.cells_tsv (by simpa [tableOf] using hne) ?_ ?_
  · intro cell hcell
    obtain ⟨i, _, rfl⟩ := List.mem_map.1 hcell
    exact Formula.isCell_render fun label hl =>
      Formula.isName_of_ofText hf ((part_formula f i).labels_subset hl)
  · intro row hrow
    obtain ⟨bits, rfl⟩ := mem_rows hrow
    refine ⟨by simpa using hne, ?_⟩
    intro c hc
    obtain ⟨i, _, rfl⟩ := List.mem_map.1 hc
    exact Table.digit_ne _

/-- The rows are printed in the lines after the header. -/
theorem getElem?_cells_tsv {text : String} {f : Formula} (hf : Formula.ofText text = .ok f)
    {columns : List (ofFormula f).graph.Id} (hne : columns ≠ []) {r : Nat} {row : List Char}
    (hrow : ((ofFormula f).tableOf columns).rows[r]? = some row) :
    (Table.cells (((ofFormula f).tableOf columns).tsv ++ "\n"))[r + 1]? =
      some (row.map Char.toString) := by
  obtain ⟨hlt, _⟩ := List.getElem?_eq_some_iff.1 hrow
  rw [Table.cells_append_newline, cells_tsv_tableOf hf hne, List.cons_append,
    List.getElem?_cons_succ, List.getElem?_append_left (by simpa using hlt), List.getElem?_map,
    hrow, Option.map_some]

/-- The row of an assignment starts with its values and ends with that of the whole formula. -/
theorem row_of_assignment {f : Formula} {o : CommandLine.Options}
    (h : o.rootOnly = true ∨ ∀ b, f ≠ .constant b) (ρ : String → Bool) :
    ∃ row, ((ofFormula f).tableOf (o.columns (ofFormula f))).rows[
        ofBinary ((ofFormula f).labels.map ρ)]? = some row ∧
      row.take (ofFormula f).labels.length =
        (ofFormula f).labels.map (fun label => Table.digit (ρ label)) ∧
      row.getLast? = some (Table.digit (f.value ρ)) := by
  obtain ⟨i, hi, hformula⟩ := getLast?_columns h
  refine ⟨_, getElem?_rows (by simp [labels]), ?_, ?_⟩
  · rw [CommandLine.Options.columns, List.map_append, List.take_left' (by simp [labels]),
      map_cell_vars, List.map_map]
    refine List.map_congr_left fun label hl => ?_
    exact congrArg Table.digit (reading_map (distinct_ofFormula f) ρ hl)
  · rw [List.getLast?_map, hi, Option.map_some, cell_map, hformula]

theorem tsv_tableOf_constant (b : Bool) (o : CommandLine.Options) (ho : o.rootOnly = false) :
    ((ofFormula (.constant b)).tableOf (o.columns (ofFormula (.constant b)))).tsv = "\n" := by
  have hlabels : (ofFormula (.constant b)).labels = [] := labels_ofFormula _
  have hvars : (ofFormula (.constant b)).vars = [] := List.map_eq_nil_iff.1 hlabels
  have hnodes : (ofFormula (.constant b)).subexpressions = [] :=
    List.map_eq_nil_iff.1 (map_formula_subexpressions _)
  rw [CommandLine.Options.columns, CommandLine.Options.nodes, ho, if_neg Bool.false_ne_true, hvars,
    hnodes, tableOf, hvars]
  rfl

end Expression

/-! ## Both outputs -/

namespace CommandLine

/-- The options with one expression to evaluate. -/
def Options.toEval (o : Options) (text assign : String) : Options :=
  { o with
    expressions := [text], input := none, outFormat := some .eval, assignments := some assign }

/-- The options with one expression to print the table of. -/
def Options.toTsv (o : Options) (text : String) (rootOnly : Bool) : Options :=
  { o with
    expressions := [text], input := none, outFormat := some .tsv, assignments := none, rootOnly }

variable {text assign : String} {f : Formula} {as : List Assignment} {ρ : String → Bool}
  {o : Options}

/-- A value is printed as soon as the assignments settle all labels. -/
theorem run_toEval (hf : Formula.ofText text = .ok f) (hassign : Assignment.Writes assign as)
    (hsettles : Settles as f ρ) (o : Options) (content : Except SystemError ByteArray) :
    (run (o.toEval text assign) content).failure = none ∧
      (run (o.toEval text assign) content).output =
        (Table.digit (f.value ρ)).toString ++ "\n" := by
  obtain ⟨v, hrun, hvalue⟩ := Expression.value_of_settles hsettles
  have hreport := result_report (Expression.ofText_of_formula hf) (o.toEval text assign) as
  exact run_single (o := o.toEval text assign) rfl rfl (Assignment.ofText_of_writes hassign)
    (hreport.trans (result_evaluate hrun hvalue)) content

/-- A table is printed as soon as its variables are within the limit. -/
theorem run_toTsv (hf : Formula.ofText text = .ok f)
    (hlimit : (Expression.ofFormula f).labels.length ≤ min o.maxVars 63) (rootOnly : Bool)
    (content : Except SystemError ByteArray) :
    (run (o.toTsv text rootOnly) content).failure = none ∧
      (run (o.toTsv text rootOnly) content).output =
        ((Expression.ofFormula f).tableOf
          ((o.toTsv text rootOnly).columns (Expression.ofFormula f))).tsv ++ "\n" := by
  have hnone : Assignment.ofText "" = .ok [] := Assignment.ofText_of_writes ⟨[], .nil, rfl⟩
  have hfinish := finish_tabulation (o := o.toTsv text rootOnly) (Expression.distinct_ofFormula f)
    hlimit
  have hreport := result_report (Expression.ofText_of_formula hf) (o.toTsv text rootOnly) []
  refine run_single (o := o.toTsv text rootOnly) rfl rfl hnone (hreport.trans ?_) content
  exact congrArg (Except.map Table.tsv) hfinish

/-- The value that is printed for an expression under an assignment, the truth value of the formula
derived, is the last cell in the printed line of the assignment. Line 0 is the header, so the line
is found after the number that the values of the variables spell. Only a constant has no such cell
unless the root is asked for: its table is an empty header above an empty row. Labels may be
assigned in any order, repeatedly, and others with them. -/
theorem run_eval_eq_last_cell {text : String} {e : Expression}
    (he : Expression.ofText text = .ok e) {o : Options}
    (hlimit : e.labels.length ≤ min o.maxVars 63) (ρ : String → Bool)
    (content : Except SystemError ByteArray) :
    (∃ assign, Assignment.Writes assign (e.labels.map fun label => ⟨label, ρ label⟩)) ∧
    ∃ symbols f d, lex text = .ok symbols ∧ Derives .disjunction symbols f d ∧
      (∀ assign as, Assignment.Writes assign as → (∀ label ∈ e.labels, ⟨label, ρ label⟩ ∈ as) →
        (∀ a ∈ as, a.label ∈ e.labels → a.value = ρ a.label) →
        (run (o.toEval text assign) content).failure = none ∧
        (run (o.toEval text assign) content).output =
          (Table.digit (f.value ρ)).toString ++ "\n") ∧
      ∀ rootOnly,
        (run (o.toTsv text rootOnly) content).failure = none ∧
        (rootOnly = true ∨ ¬ SingleConstant symbols →
          ∃ line, (Table.cells (run (o.toTsv text rootOnly) content).output)[
              ofBinary (e.labels.map ρ) + 1]? = some line ∧
            line.take e.labels.length =
              e.labels.map (fun label => (Table.digit (ρ label)).toString) ∧
            line.getLast? = some (Table.digit (f.value ρ)).toString) ∧
        (rootOnly = false → SingleConstant symbols →
          (run (o.toTsv text rootOnly) content).output = "\n\n") := by
  obtain ⟨f, hf, rfl⟩ := Expression.ofText_eq_ok he
  obtain ⟨symbols, d, hlex, hd, _⟩ := Formula.derives_of_ofText hf
  refine ⟨?_, symbols, f, d, hlex, hd, ?_, ?_⟩
  · refine Assignment.exists_writes fun a ha => ?_
    obtain ⟨label, hl, rfl⟩ := List.mem_map.1 ha
    have hl := Expression.mem_labels_ofFormula.1 hl
    exact Assignment.assignable_of_isName (Formula.isName_of_ofText hf hl)
  · intro assign as hassign hlisted hvalues
    exact run_toEval hf hassign (settles_of_labels hlisted hvalues) o content
  · intro rootOnly
    obtain ⟨hfailure, houtput⟩ := run_toTsv hf hlimit rootOnly content
    refine ⟨hfailure, ?_, ?_⟩
    · intro h
      have hlast : (o.toTsv text rootOnly).rootOnly = true ∨ ∀ b, f ≠ .constant b := by
        refine h.imp_right fun hsingle b hb => hsingle ?_
        rw [hb] at hd
        exact hd.singleConstant
      obtain ⟨row, hrow, hvalues, hvalue⟩ := Expression.row_of_assignment hlast ρ
      rw [houtput, Expression.getElem?_cells_tsv hf (Expression.columns_ne_nil hlast) hrow]
      refine ⟨_, rfl, ?_, ?_⟩
      · rw [← List.map_take, hvalues, List.map_map]
        rfl
      · rw [List.getLast?_map, hvalue]
        rfl
    · intro hroot hsingle
      obtain ⟨b, e, hb⟩ := hsingle.derives
      obtain ⟨rfl, -⟩ := hd.unique (.conjunction (.literal (.bare hb)))
      rw [houtput, Expression.tsv_tableOf_constant b _ hroot]
      rfl

/-- The first variable of `(q ⇒ p) ∨ p` is `q`, so `q = 0` and `p = 1` have row 1 in line 2. -/
theorem run_eval_eq_last_cell_arrow :
    let text := "(q > p) or p"
    let e := Expression.ofFormula
      (.binary .or (.binary .implies (.var "q") (.var "p")) (.var "p"))
    let o : Options := {}
    Expression.ofText text = .ok e ∧ e.labels.length ≤ min o.maxVars 63 ∧
      (run (o.toEval text " p = True ,,q=F") (.ok .empty)).output = "1\n" ∧
      ∃ line, (Table.cells (run (o.toTsv text true) (.ok .empty)).output)[2]? = some line ∧
        line.getLast? = some "1" := by
  intro text e o
  let ρ (label : String) : Bool := label == "p"
  let as : List Assignment := [⟨"p", true⟩, ⟨"q", false⟩]
  have he : Expression.ofText text = .ok e := Expression.ofText_of_toOption (by decide +kernel)
  have hlimit : e.labels.length ≤ min o.maxVars 63 := by decide +kernel
  have hspace : ∀ c ∈ [' '], Text.isBlank c := List.forall_mem_singleton.2 rfl
  have hp : Assignment.WritesItem (" p ".toList ++ '=' :: " True ".toList) ⟨"p", true⟩ :=
    .item (Assignment.assignable_of_isName (by rfl)) ⟨[' '], [' '], hspace, hspace, rfl⟩
      (by decide : Assignment.Spells "True".toList true) ⟨[' '], [' '], hspace, hspace, rfl⟩
  have hq : Assignment.WritesItem ("q".toList ++ '=' :: "F".toList) ⟨"q", false⟩ :=
    .item (Assignment.assignable_of_isName (by rfl)) (.refl _)
      (by decide : Assignment.Spells "F".toList false) (.refl _)
  have hblank : ∀ c ∈ ([] : List Char), Text.isBlank c := nofun
  have hassign : Assignment.Writes " p = True ,,q=F" as :=
    ⟨_, .item hp (.blank hblank (.item hq .nil)), rfl⟩
  have hlisted : ∀ label ∈ e.labels, ⟨label, ρ label⟩ ∈ as := by decide +kernel
  have hvalues : ∀ a ∈ as, a.label ∈ e.labels → a.value = ρ a.label := by decide +kernel
  have hline : ofBinary (e.labels.map ρ) + 1 = 2 := by decide +kernel
  obtain ⟨-, symbols, f, _, -, -, heval, htsv⟩ := run_eval_eq_last_cell he hlimit ρ (.ok .empty)
  obtain ⟨-, houtput⟩ := heval _ as hassign hlisted hvalues
  obtain ⟨-, hrow, -⟩ := htsv true
  obtain ⟨line, hfound, -, hlast⟩ := hrow (.inl rfl)
  rw [hline] at hfound
  have hone : (run (o.toEval text " p = True ,,q=F") (.ok .empty)).output = "1\n" := by
    decide +kernel
  rw [houtput] at hone
  cases hvalue : f.value ρ with
  | false =>
    rw [hvalue] at hone
    exact absurd hone (by decide)
  | true =>
    rw [hvalue] at houtput hlast
    exact ⟨he, hlimit, houtput, line, hfound, hlast⟩

end CommandLine

end Propositional
