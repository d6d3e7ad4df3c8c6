import Propositional.Proofs.Expression.Assigning
import Propositional.Proofs.Expression.RoundTrip
import Propositional.Proofs.Table.Completeness

/-!
# Columns

A table over all variables of an expression explains itself. The header of a column can be
read, and what it is read as has the values that the column shows as soon as its variables get
the values that theirs show. So columns with the same header are the same.
-/

namespace Propositional

namespace Expression

/-- What bits say about labels, one bit for each variable in order. -/
def reading (e : Expression) (bits : List Bool) (label : String) : Bool :=
  (bits[e.labels.idxOf label]?).getD false

/-- What the column of a node shows where the variables have given bits. -/
def cell (e : Expression) (bits : List Bool) (i : e.graph.Id) : Char :=
  Table.digit ((e.graph.formula i).value (e.reading bits))

/-- The table of nodes over all variables. -/
def tableOf (e : Expression) (columns : List e.graph.Id) : Table where
  header := columns.map e.render
  rows := (List.range (2 ^ e.vars.length)).map fun r =>
    columns.map (e.cell (binary r e.vars.length))

variable {e : Expression}

/-! ## Bits of variables -/

theorem nodup_labels (hd : Distinct e.graph.nodes) : e.labels.Nodup :=
  e.graph.nodup_vars.map_on fun _ _ _ _ hlabel => Graph.Variable.eq_of_label hd hlabel

theorem reading_label (hd : Distinct e.graph.nodes) {bits : List Bool} {k : Nat} {label : String}
    {b : Bool} (hk : e.labels[k]? = some label) (hb : bits[k]? = some b) :
    e.reading bits label = b := by
  obtain ⟨hlt, rfl⟩ := List.getElem?_eq_some_iff.1 hk
  rw [reading, (nodup_labels hd).idxOf_getElem k hlt, hb]
  rfl

theorem map_reading_labels (hd : Distinct e.graph.nodes) {bits : List Bool}
    (hbits : bits.length = e.labels.length) : e.labels.map (e.reading bits) = bits := by
  apply List.ext_getElem
  · rw [List.length_map, hbits]
  · intro k hk hk'
    rw [List.length_map] at hk
    rw [List.getElem_map]
    exact reading_label hd (List.getElem?_eq_getElem hk) (List.getElem?_eq_getElem hk')

theorem reading_map (hd : Distinct e.graph.nodes) (ρ : String → Bool) {label : String}
    (hl : label ∈ e.labels) : e.reading (e.labels.map ρ) label = ρ label := by
  obtain ⟨k, hk⟩ := List.mem_iff_getElem?.1 hl
  refine reading_label hd hk ?_
  rw [List.getElem?_map, hk]
  rfl

/-! ## Columns of variables -/

theorem formula_var (x : e.graph.Variable) : e.graph.formula x.id = .var x.label := by
  rw [Graph.formula_eq, Graph.node_of_entry_var x.entry_id]
  rfl

theorem render_var (x : e.graph.Variable) : e.render x.id = x.label :=
  congrArg Formula.render (formula_var x)

theorem cell_var (bits : List Bool) (x : e.graph.Variable) :
    e.cell bits x.id = Table.digit (e.reading bits x.label) := by
  rw [cell, formula_var]
  rfl

theorem map_cell_vars (e : Expression) (bits : List Bool) :
    (e.vars.map (·.id)).map (e.cell bits) = (e.labels.map (e.reading bits)).map Table.digit := by
  rw [List.map_map, labels, List.map_map, List.map_map]
  exact List.map_congr_left fun x _ => cell_var bits x

theorem map_render_vars (e : Expression) : (e.vars.map (·.id)).map e.render = e.labels := by
  rw [List.map_map, labels]
  exact List.map_congr_left fun x _ => render_var x

theorem map_formula_vars (e : Expression) :
    (e.vars.map (·.id)).map e.graph.formula = e.labels.map .var := by
  rw [List.map_map, labels, List.map_map]
  exact List.map_congr_left fun x _ => formula_var x

theorem map_value_vars (e : Expression) (ρ : String → Bool) :
    (e.vars.map (·.id)).map (fun i => (e.graph.formula i).value ρ) = e.labels.map ρ := by
  rw [← Function.comp_def (Formula.value ρ), ← List.map_map, map_formula_vars, List.map_map]
  rfl

/-! ## Columns of nodes -/

variable {columns nodes : List e.graph.Id}

theorem getElem?_header {k : Nat} {header : String} :
    (e.tableOf columns).header[k]? = some header ↔
      ∃ i, columns[k]? = some i ∧ e.render i = header := by
  simp [tableOf]

theorem mem_rows {row : List Char} (h : row ∈ (e.tableOf columns).rows) :
    ∃ bits, row = columns.map (e.cell bits) := by
  obtain ⟨r, _, rfl⟩ := List.mem_map.1 h
  exact ⟨_, rfl⟩

/-- The row of an assignment has the number that the values spell. -/
theorem getElem?_rows {bits : List Bool} (hbits : bits.length = e.vars.length) :
    (e.tableOf columns).rows[ofBinary bits]? = some (columns.map (e.cell bits)) := by
  have hlt : ofBinary bits < 2 ^ e.vars.length := hbits ▸ ofBinary_lt bits
  rw [tableOf, List.getElem?_map, List.getElem?_range hlt, Option.map_some, ← hbits,
    binary_ofBinary]

theorem take_header :
    (e.tableOf (e.vars.map (·.id) ++ nodes)).header.take e.vars.length = e.labels := by
  rw [tableOf, List.map_append, map_render_vars]
  exact List.take_left' (List.length_map _)

/-- The first columns show what the variables named in their headers have. -/
theorem getElem?_row_of_var {j : Nat} {label : String} (hj : j < e.vars.length)
    (h : (e.tableOf (e.vars.map (·.id) ++ nodes)).header[j]? = some label) (bits : List Bool) :
    ((e.vars.map (·.id) ++ nodes).map (e.cell bits))[j]? =
      some (Table.digit (e.reading bits label)) := by
  obtain ⟨i, hi, rfl⟩ := getElem?_header.1 h
  rw [List.getElem?_map, hi]
  rw [List.getElem?_append_left (by simpa using hj), List.getElem?_map] at hi
  obtain ⟨x, _, rfl⟩ := Option.map_eq_some_iff.1 hi
  rw [Option.map_some, cell_var, render_var]

/-- The header of a column is read as the formula of its node. -/
theorem ofText_render_node {text : String} {f : Formula} (h : Formula.ofText text = .ok f)
    (i : (ofFormula f).graph.Id) :
    Formula.ofText ((ofFormula f).render i) = .ok ((ofFormula f).graph.formula i) :=
  Formula.ofText_render_of_part h (part_formula f i)

theorem cell_map (f : Formula) (ρ : String → Bool) (i : (ofFormula f).graph.Id) :
    (ofFormula f).cell ((ofFormula f).labels.map ρ) i =
      Table.digit (((ofFormula f).graph.formula i).value ρ) := by
  refine congrArg Table.digit (Formula.value_congr fun label hl => ?_)
  refine reading_map (distinct_ofFormula f) ρ (mem_labels_ofFormula.2 ?_)
  exact (part_formula f i).labels_subset hl

theorem labels_node_subset (f : Formula) (i : (ofFormula f).graph.Id) :
    (ofFormula ((ofFormula f).graph.formula i)).labels ⊆ (ofFormula f).labels := by
  intro label hl
  rw [mem_labels_ofFormula] at hl ⊢
  exact (part_formula f i).labels_subset hl

/-- After its labels have been assigned, a part of the expression has the value that a row with
these bits shows for it. -/
theorem run_node (f : Formula) (bits : List Bool) (i : (ofFormula f).graph.Id) :
    ∃ h' b, (ofFormula ((ofFormula f).graph.formula i)).run
        ((ofFormula ((ofFormula f).graph.formula i)).labels.map fun label =>
          .assign label ((ofFormula f).reading bits label)) = .ok h' ∧
      h'.value = .ok b ∧ (ofFormula f).cell bits i = Table.digit b := by
  obtain ⟨v, hrun, hvalue⟩ := value_of_settles
    (settles_map ((ofFormula f).graph.formula i) ((ofFormula f).reading bits))
  rw [actionsOf, List.map_map] at hrun
  exact ⟨_, _, hrun, hvalue, rfl⟩

end Expression

/-! ## The finished table -/

namespace Rows

variable {e : Expression} {rows : Rows e.graph}

theorem get_assign_reading (hd : Distinct e.graph.nodes) (hvars : rows.vars = e.vars) (r : UInt64)
    (x : e.graph.Variable) :
    (rows.assign r).get x.id = some (e.reading (binary r.toNat e.vars.length) x.label) := by
  obtain ⟨k, hk⟩ : ∃ k, e.vars[k]? = some x := List.mem_iff_getElem?.1 (e.graph.mem_vars x)
  obtain ⟨hlt, _⟩ := List.getElem?_eq_some_iff.1 hk
  -- no variable is listed twice, so its bit is the one at its only place
  have hlast : ∀ k' > k, e.vars[k']? ≠ some x := by
    intro k' hk' hx
    have hsame := (List.getElem?_inj hlt e.graph.nodup_vars).1 (hk.trans hx.symm)
    omega
  have hlabel : e.labels[k]? = some x.label := by
    rw [Expression.labels, List.getElem?_map, hk]
    rfl
  have hlisted := (rows.assigns_assign r).listed k x
  rw [hvars] at hlisted
  rw [hlisted hk hlast, Expression.reading_label hd hlabel (getElem?_binary _ hlt)]

/-- Rows over all variables show nothing but truth values of formulas. -/
theorem rowAt_eq_reading (hd : Distinct e.graph.nodes) (hvars : rows.vars = e.vars) {r : Nat}
    (hr : r < 2 ^ e.vars.length) :
    rows.rowAt r = .ok ((e.vars.map (·.id) ++ rows.nodes).map fun i =>
      (e.graph.formula i).value (e.reading (binary r e.vars.length))) := by
  have hlength : (binary r e.vars.length).length = e.labels.length := by simp [Expression.labels]
  rw [← hvars] at hr
  rw [List.map_append, Expression.map_value_vars, Expression.map_reading_labels hd hlength, ← hvars]
  refine rowAt_eq_ok hr fun i _ => Graph.evaluate_eq_value fun x _ => ?_
  rw [get_assign_reading hd hvars, toNat_toUInt64_of_lt rows.few hr, hvars]

theorem collect_eq_reading (hd : Distinct e.graph.nodes) (hvars : rows.vars = e.vars)
    (hposition : rows.position = 0) :
    rows.collect.1 = .ok ((List.range (2 ^ e.vars.length)).map fun r =>
      (e.vars.map (·.id) ++ rows.nodes).map fun i =>
        (e.graph.formula i).value (e.reading (binary r e.vars.length))) := by
  rw [collect_of_start hposition, hvars]
  exact mapM_eq_ok_map fun r hr => rowAt_eq_reading hd hvars (List.mem_range.1 hr)

end Rows

namespace Tabulation

variable {t : Tabulation} {e : Expression}

/-- A request over all variables that stays within the limit is met. -/
theorem finish_eq_tableOf (hd : Distinct e.graph.nodes) (hvars : t.vars = e.tabulation.vars)
    (hlimit : t.vars.length ≤ t.limit) (hnodes : ∀ i ∈ t.nodes, i < e.graph.size) :
    ∃ nodes : List e.graph.Id, nodes.map (·.val) = t.nodes ∧
      (t.finish e).1 = .ok (e.tableOf (e.vars.map (·.id) ++ nodes)) := by
  have hvariables : ∀ i ∈ t.vars, ∃ x : e.graph.Variable, x.id.val = i := by
    intro i hi
    rw [hvars] at hi
    obtain ⟨x, _, hx⟩ := List.mem_map.1 hi
    exact ⟨x, hx⟩
  obtain ⟨rows, hrows⟩ := exists_rows hlimit hvariables hnodes
  obtain ⟨hlisted, hn, _, hposition⟩ := rows_eq_ok hrows
  have hall : rows.vars = e.vars := by
    rw [hvars] at hlisted
    exact List.map_injective_iff.2 (fun _ _ h => Graph.Variable.eq_of_id (Fin.ext h)) hlisted
  refine ⟨rows.nodes, hn, ?_⟩
  rw [finish_eq hrows, Rows.collect_eq_reading hd hall hposition, Rows.header, hall]
  simp only [Except.mapError, Except.map, List.map_map, Expression.tableOf, Function.comp_def]
  rfl

/-- Every column of a table over all variables is explained by its header. What the header is
read as has no labels but those of the first columns, and its value after these have been
assigned what a row shows for them is what the row shows in the column, `1` for true and `0` for
false. So columns with the same header are the same. -/
theorem finish_describes {text : String} {e : Expression} (he : Expression.ofText text = .ok e)
    {t : Tabulation} (hvars : t.vars = e.tabulation.vars) (hlimit : t.vars.length ≤ t.limit)
    (hnodes : ∀ i ∈ t.nodes, i < e.graph.size) :
    ∃ table, (t.finish e).1 = .ok table ∧
      table.header.length = e.vars.length + t.nodes.length ∧
      table.rows.length = 2 ^ e.vars.length ∧
      (∀ (k : Nat) (header : String), table.header[k]? = some header →
        ∃ h, Expression.ofText header = .ok h ∧
          (∀ label ∈ h.labels, label ∈ table.header.take e.vars.length) ∧
          ∀ row ∈ table.rows, ∃ assigned : String → Bool,
            (∀ j < e.vars.length, ∀ label, table.header[j]? = some label →
              row[j]? = some (if assigned label then '1' else '0')) ∧
            ∃ h' b, h.run (h.labels.map fun label => .assign label (assigned label)) = .ok h' ∧
              h'.value = .ok b ∧ row[k]? = some (if b then '1' else '0')) ∧
      ∀ (k k' : Nat) (header : String), table.header[k]? = some header →
        table.header[k']? = some header → ∀ row ∈ table.rows, row[k]? = row[k']? := by
  obtain ⟨f, hf, rfl⟩ := Expression.ofText_eq_ok he
  obtain ⟨nodes, hn, hfinish⟩ :=
    finish_eq_tableOf (Expression.distinct_ofFormula f) hvars hlimit hnodes
  refine ⟨_, hfinish, ?_, ?_, ?_, ?_⟩
  · rw [← hn]
    simp [Expression.tableOf]
  · simp [Expression.tableOf]
  · intro k header hk
    obtain ⟨i, hi, rfl⟩ := Expression.getElem?_header.1 hk
    refine ⟨_, Expression.ofText_of_formula (Expression.ofText_render_node hf i), ?_, ?_⟩
    · rw [Expression.take_header]
      exact Expression.labels_node_subset f i
    · intro row hrow
      obtain ⟨bits, rfl⟩ := Expression.mem_rows hrow
      obtain ⟨h', b, hrun, hvalue, hcell⟩ := Expression.run_node f bits i
      refine ⟨(Expression.ofFormula f).reading bits, ?_, h', b, hrun, hvalue, ?_⟩
      · exact fun j hj label hlabel => Expression.getElem?_row_of_var hj hlabel bits
      · rw [List.getElem?_map, hi, Option.map_some, hcell, Table.digit]
  · intro k k' header hk hk' row hrow
    obtain ⟨bits, rfl⟩ := Expression.mem_rows hrow
    obtain ⟨i, hi, hheader⟩ := Expression.getElem?_header.1 hk
    obtain ⟨j, hj, hheader'⟩ := Expression.getElem?_header.1 hk'
    have hformula : (Expression.ofFormula f).graph.formula i =
        (Expression.ofFormula f).graph.formula j := by
      have hread := Expression.ofText_render_node hf i
      rw [hheader, ← hheader', Expression.ofText_render_node hf j] at hread
      exact (Except.ok.inj hread).symm
    rw [List.getElem?_map, List.getElem?_map, hi, hj]
    simp only [Option.map_some, Expression.cell, hformula]

/-- In a table of `~A ∧ A` over its three nodes the last column has the header of the first. -/
theorem finish_describes_repeated :
    let e := Expression.ofFormula (.binary .and (.negation (.var "A")) (.var "A"))
    let t : Tabulation := { e.tabulation with nodes := [2, 1, 0] }
    Expression.ofText "!A & A" = .ok e ∧ t.vars.length ≤ t.limit ∧
      (∀ i ∈ t.nodes, i < e.graph.size) ∧
      ∃ table, (t.finish e).1 = .ok table ∧ table.header = ["A", "~A ∧ A", "~A", "A"] ∧
        table.rows = [['0', '0', '1', '0'], ['1', '0', '0', '1']] ∧
        ∀ row ∈ table.rows, row[0]? = row[3]? := by
  intro e t
  have he : Expression.ofText "!A & A" = .ok e := Expression.ofText_of_toOption (by decide +kernel)
  have hvars : t.vars = e.tabulation.vars := rfl
  have hlimit : t.vars.length ≤ t.limit := by decide +kernel
  have hnodes : ∀ i ∈ t.nodes, i < e.graph.size := by decide +kernel
  have hshown : (t.finish e).1.toOption =
      some ⟨["A", "~A ∧ A", "~A", "A"], [['0', '0', '1', '0'], ['1', '0', '0', '1']]⟩ := by
    decide +kernel
  obtain ⟨table, hfinish, -, -, -, hsame⟩ := finish_describes he hvars hlimit hnodes
  rw [hfinish] at hshown
  obtain rfl : table = _ := Option.some.inj hshown
  exact ⟨he, hlimit, hnodes, _, hfinish, rfl, rfl, hsame 0 3 "A" rfl rfl⟩

end Tabulation

end Propositional
