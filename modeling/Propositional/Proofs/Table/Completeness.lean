import Propositional.Tabulation
import Propositional.Proofs.Table.Rows

/-!
# Completeness of tables

A table that is asked for in a request that is accepted has one row for each way to give the
listed variables values, in the order of binary numbers, and every cell is right.
-/

namespace Propositional

/-! ## Accepted requests -/

theorem map_of_resolve {α : Type} {name? : Nat → Option α} {number : α → Nat}
    (hnumber : ∀ i a, name? i = some a → number a = i) {indices : List Nat} {as : List α}
    (h : resolve name? indices = .ok as) : as.map number = indices := by
  fun_induction resolve name? indices generalizing as with
  | case1 =>
    cases h
    rfl
  | case2 i indices a ha ih =>
    obtain ⟨rest, hr, rfl⟩ := map_eq_ok.1 h
    rw [List.map_cons, hnumber i a ha, ih hr]
  | case3 => cases h

/-- Numbers that all name something are resolved. -/
theorem exists_resolve {α : Type} {name? : Nat → Option α} {indices : List Nat}
    (h : ∀ i ∈ indices, ∃ a, name? i = some a) : ∃ as, resolve name? indices = .ok as := by
  induction indices with
  | nil => exact ⟨[], rfl⟩
  | cons i indices ih =>
    obtain ⟨⟨a, ha⟩, hindices⟩ := List.forall_mem_cons.1 h
    obtain ⟨as, has⟩ := ih hindices
    refine ⟨a :: as, ?_⟩
    rw [resolve, ha, has]
    rfl

namespace Tabulation

variable {t : Tabulation} {e : Expression} {rows : Rows e.graph}

/-- A request within the limit whose numbers are those of variables and nodes is accepted. -/
theorem exists_rows (hlimit : t.vars.length ≤ t.limit)
    (hvars : ∀ i ∈ t.vars, ∃ x : e.graph.Variable, x.id.val = i)
    (hnodes : ∀ i ∈ t.nodes, i < e.graph.size) : ∃ rows, t.rows e = .ok rows := by
  obtain ⟨vars, hv⟩ : ∃ vars, resolve (fun i => (e.graph.variableAt? i).toOption) t.vars = .ok vars :=
    exists_resolve fun i hi => (hvars i hi).imp fun _ hx =>
      toOption_eq_some.2 (Graph.variableAt?_eq_ok.2 hx)
  obtain ⟨nodes, hn⟩ : ∃ nodes, resolve (fun i => (e.graph.idAt? i).toOption) t.nodes = .ok nodes :=
    exists_resolve fun i hi => ⟨⟨i, hnodes i hi⟩, toOption_eq_some.2 (Graph.idAt?_eq_ok.2 rfl)⟩
  unfold Tabulation.rows
  rw [dif_neg (Nat.not_lt.2 hlimit)]
  split
  next hv' => simp [hv] at hv'
  next => exact ⟨_, by rw [hn]⟩

/-- The rows of an accepted request are for what it lists, from the first on, and start from
the values of the expression. -/
theorem rows_eq_ok (h : t.rows e = .ok rows) :
    rows.vars.map (·.id.val) = t.vars ∧ rows.nodes.map (·.val) = t.nodes ∧
      rows.values = e.values ∧ rows.position = 0 := by
  unfold Tabulation.rows at h
  split at h
  · cases h
  · split at h
    · cases h
    next vars hvars =>
      split at h
      · cases h
      next nodes hnodes =>
        cases h
        refine ⟨?_, ?_, rfl, rfl⟩
        · exact map_of_resolve
            (fun _ _ hx => Graph.variableAt?_eq_ok.1 (toOption_eq_some.1 hx)) hvars
        · exact map_of_resolve (fun _ _ hi => Graph.idAt?_eq_ok.1 (toOption_eq_some.1 hi)) hnodes

/-- Values play no part in accepting a request. -/
theorem rows_withValues (h : t.rows e = .ok rows) (v : Valuation e.graph) :
    t.rows (e.withValues v) = .ok { rows with values := v } := by
  obtain ⟨⟨g, values⟩, root⟩ := e
  change t.rows ⟨⟨g, v⟩, root⟩ = _
  unfold Tabulation.rows at h ⊢
  split at h
  · cases h
  next hn =>
    rw [dif_neg hn]
    split at h
    · cases h
    next vars hvars =>
      split at h
      · cases h
      next nodes hnodes =>
        cases h
        split
        next hvars' => simp [hvars] at hvars'
        next vars' hvars' =>
          obtain rfl : vars = vars' := by simpa [hvars] using hvars'
          simp only [hnodes]
          rfl

theorem finish_eq (h : t.rows e = .ok rows) :
    (t.finish e).1 = (rows.collect.1.mapError .evaluation).map fun found =>
      { header := rows.header, rows := found.map (·.map Table.digit) } := by
  unfold finish
  rw [h]

/-- The table does not depend on what the listed variables held before. -/
theorem finish_congr (h : t.rows e = .ok rows) {v : Valuation e.graph}
    (hv : Valuation.SameOff rows.vars v e.values) :
    (t.finish (e.withValues v)).1 = (t.finish e).1 := by
  obtain ⟨_, _, hvalues, hposition⟩ := rows_eq_ok h
  have hfollows : Rows.Follows rows { rows with values := v } :=
    ⟨rfl, rfl, by rw [hvalues]; exact hv⟩
  have hcollect : ({ rows with values := v } : Rows e.graph).collect.1 = rows.collect.1 := by
    rw [Rows.collect_of_start hposition, Rows.collect_of_start (by exact hposition),
      funext hfollows.rowAt]
  have hfinish : (t.finish (e.withValues v)).1 =
      (({ rows with values := v } : Rows e.graph).collect.1.mapError .evaluation).map fun found =>
        { header := rows.header, rows := found.map (·.map Table.digit) } :=
    finish_eq (rows_withValues h v)
  rw [hfinish, hcollect, finish_eq h]

/-- The table that is asked for exists if the variables that are needed and not listed have
values. It has one row for each number below the power of two, in order, which shows the bits of
the number and the values of the nodes under them, `1` for true and `0` for false; and every list of
bits is that of exactly one row. -/
theorem finish_complete (h : t.rows e = .ok rows)
    (hset : ∀ i ∈ rows.nodes, ∀ x : e.graph.Variable, e.graph.Reaches i x.id →
      x.id.val ∉ t.vars → (e.values.get x.id).isSome) :
    rows.vars.map (·.id.val) = t.vars ∧ rows.nodes.map (·.val) = t.nodes ∧
    ∃ (table : Table) (value : Nat → e.graph.Id → Bool),
      (t.finish e).1 = .ok table ∧
      table.header = rows.vars.map (fun x => e.render x.id) ++ rows.nodes.map e.render ∧
      table.rows = (List.range (2 ^ rows.vars.length)).map (fun r =>
        (binary r rows.vars.length ++ rows.nodes.map (value r)).map fun b =>
          if b then '1' else '0') ∧
      (∀ r < 2 ^ rows.vars.length, ∃ w, Rows.Assigns rows.vars r e.values w ∧
        ∀ i ∈ rows.nodes, e.graph.evaluate w i = .ok (value r i)) ∧
      (∀ bits : List Bool, bits.length = rows.vars.length →
        ∃ r < 2 ^ rows.vars.length, binary r rows.vars.length = bits ∧
          ∀ s < 2 ^ rows.vars.length, binary s rows.vars.length = bits → s = r) ∧
      ∀ v, Valuation.SameOff rows.vars v e.values → (t.finish (e.withValues v)).1 = .ok table := by
  obtain ⟨hvars, hnodes, hvalues, hposition⟩ := rows_eq_ok h
  have hready : rows.Ready := by
    intro i hi x hx hmem
    refine Option.isSome_iff_exists.1 ?_
    rw [hvalues]
    refine hset i hi x hx fun hlisted => ?_
    rw [← hvars] at hlisted
    obtain ⟨y, hy, hid⟩ := List.mem_map.1 hlisted
    rw [Graph.Variable.eq_of_id (Fin.ext hid)] at hy
    exact hmem hy
  let value (r : Nat) (i : e.graph.Id) : Bool :=
    ((e.graph.evaluate (rows.assign r.toUInt64) i).toOption).getD false
  have hvalue : ∀ r, ∀ i ∈ rows.nodes,
      e.graph.evaluate (rows.assign r.toUInt64) i = .ok (value r i) := by
    intro r i hi
    obtain ⟨b, hb⟩ := hready.evaluate_ok hi r.toUInt64
    simp only [value, hb]
    rfl
  have hcollect : rows.collect.1 = .ok ((List.range (2 ^ rows.vars.length)).map fun r =>
      binary r rows.vars.length ++ rows.nodes.map (value r)) := by
    rw [Rows.collect_of_start hposition]
    apply mapM_eq_ok_map
    intro r hr
    exact Rows.rowAt_eq_ok (List.mem_range.1 hr) (hvalue r)
  have hfinish := finish_eq h
  rw [hcollect] at hfinish
  refine ⟨hvars, hnodes, _, value, hfinish, ?_, ?_, ?_, ?_, ?_⟩
  · simp only [Rows.header, List.map_append, List.map_map]
    rfl
  · exact List.map_map
  · intro r hr
    refine ⟨rows.assign r.toUInt64, ?_, hvalue r⟩
    have hassigns := rows.assigns_assign r.toUInt64
    rwa [toNat_toUInt64_of_lt rows.few hr, hvalues] at hassigns
  · intro bits hbits
    rw [← hbits]
    exact exists_unique_binary bits
  · intro v hv
    rw [finish_congr h hv, hfinish]
    rfl

/-- A variable that is listed twice, of which the last place counts, and one that is not listed but
set. -/
theorem finish_complete_repeated :
    let f := Formula.binary .and (.var "A") (.binary .implies (.var "B") (.var "C"))
    let e := ((Expression.ofFormula f).assign? "C" false).getD (.ofFormula f)
    let t : Tabulation := { vars := [0, 1, 0], nodes := [4, 3] }
    ∃ rows, t.rows e = .ok rows ∧
      (∀ i ∈ rows.nodes, ∀ x : e.graph.Variable, e.graph.Reaches i x.id →
        x.id.val ∉ t.vars → (e.values.get x.id).isSome) ∧
      ∃ table, (t.finish e).1 = .ok table ∧ table.rows.length = 8 ∧
        table.rows.map String.ofList =
          ["00001", "00111", "01001", "01111", "10001", "10111", "11001", "11111"] := by
  intro f e t
  have haccepted : (t.rows e).toOption.isSome := by decide +kernel
  have hset : ∀ x ∈ e.graph.vars, x.id.val ∉ t.vars → (e.values.get x.id).isSome := by
    decide +kernel
  obtain ⟨rows, hsome⟩ := Option.isSome_iff_exists.1 haccepted
  have hrows : t.rows e = .ok rows := toOption_eq_some.1 hsome
  have hneeded : ∀ i ∈ rows.nodes, ∀ x : e.graph.Variable, e.graph.Reaches i x.id →
      x.id.val ∉ t.vars → (e.values.get x.id).isSome :=
    fun _ _ x _ => hset x (Graph.mem_vars x)
  obtain ⟨hvars, _, table, _, hfinish, _, htable, _⟩ := finish_complete hrows hneeded
  have hlength : rows.vars.length = 3 :=
    (List.length_map _).symm.trans (congrArg List.length hvars)
  have hcells : (t.finish e).1.toOption.map (·.rows.map String.ofList) =
      some ["00001", "00111", "01001", "01111", "10001", "10111", "11001", "11111"] := by
    decide +kernel
  rw [hfinish] at hcells
  refine ⟨rows, hrows, hneeded, table, hfinish, ?_, Option.some.inj hcells⟩
  rw [htable, List.length_map, List.length_range]
  exact congrArg (2 ^ ·) hlength

end Tabulation

end Propositional
