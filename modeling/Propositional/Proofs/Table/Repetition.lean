import Propositional.Proofs.Table.Effects

/-!
# Repetition of variables

A row gives each listed variable the bits at all of its places in the list, the last one last. So
what the row shows at a place is what the variable holds after it as far as the bits at the places
of the variable agree. They do in every row if no variable is repeated, and in some row they do not
if one is.
-/

namespace Propositional

/-- The row that a call is answered with is the last one taken. -/
theorem Call.exists_of_answer {total c : Nat} {row : Nat → Except Unassigned Row}
    {found : Except Unassigned Row} {call : Call}
    (h : call.answer total row c = .row (some found)) :
    ∃ r, call.taken total c = r + 1 ∧ row r = found := by
  cases call with
  | next =>
    obtain ⟨hc, hrow⟩ : c < total ∧ row c = found := by simpa [answer] using h
    exact ⟨c, Nat.min_eq_left hc, hrow⟩
  | nth k =>
    obtain ⟨hk, hrow⟩ : c + k < total ∧ row (c + k) = found := by simpa [answer] using h
    exact ⟨c + k, Nat.min_eq_left hk, hrow⟩
  | last =>
    obtain ⟨hc, hrow⟩ : c < total ∧ row (total - 1) = found := by simpa [answer] using h
    exact ⟨total - 1, (Nat.sub_add_cancel (Nat.one_le_of_lt hc)).symm, hrow⟩
  | bounds | total | count => cases h

namespace Rows

variable {g : Graph}

/-- After some calls one more is answered with a row. -/
def Yields (start : Rows g) (row : Row) (rows : Rows g) : Prop :=
  ∃ calls call, (start.run calls).2.call call = (.row (some (.ok row)), rows)

/-- A row shows, at every place of a variable in the list, what the variable holds. -/
def Shows (rows : Rows g) (row : Row) : Prop :=
  ∀ (i : Nat) (x : g.Variable), rows.vars[i]? = some x →
    (row[i]? = some true ↔ rows.values.get x.id = some true)

/-- A row shows the same at all places of a variable in the list. -/
def Agrees (vars : List g.Variable) (row : Row) : Prop :=
  ∀ (i j : Nat) (x : g.Variable), vars[i]? = some x → vars[j]? = some x → row[i]? = row[j]?

variable {start rows : Rows g} {row : Row} {r : Nat}

/-! ## One row -/

theorem exists_of_yields (hstart : start.position = 0) (h : start.Yields row rows) :
    ∃ r, Taken start (r + 1) rows ∧ start.rowAt r = .ok row := by
  obtain ⟨calls, call, hcall⟩ := h
  obtain ⟨hanswer, htaken⟩ := ((taken_zero hstart).run calls).2.call call
  rw [hcall] at hanswer htaken
  obtain ⟨r, hr, hrow⟩ := Call.exists_of_answer hanswer.symm
  rw [hr] at htaken
  exact ⟨r, htaken, hrow⟩

theorem yields_of_rowAt (hstart : start.position = 0) (hr : r < 2 ^ start.vars.length)
    (hrow : start.rowAt r = .ok row) : ∃ rows, start.Yields row rows := by
  obtain ⟨rows, hnth, _⟩ := (taken_zero hstart).nth_of_lt (k := r) (by rwa [Nat.zero_add])
  rw [Nat.zero_add, hrow] at hnth
  refine ⟨rows, [], .nth r, ?_⟩
  simp [run, call, hnth]

/-- The cells of the listed variables are the bits of the row's number. -/
theorem getElem?_of_rowAt (hr : r < 2 ^ rows.vars.length) (h : rows.rowAt r = .ok row) {i : Nat}
    (hi : i < rows.vars.length) : row[i]? = some (r.testBit (rows.vars.length - 1 - i)) := by
  obtain ⟨w, _, hrow⟩ := rows.exists_rowAt_eq hr
  rw [hrow] at h
  obtain ⟨values, _, rfl⟩ := map_eq_ok.1 h
  rw [List.getElem?_append_left (by rwa [length_binary]), getElem?_binary r hi]

/-- A variable holds what the row shows at its last place. -/
theorem Taken.get_eq_getElem? (h : Taken start (r + 1) rows) (hrow : start.rowAt r = .ok row)
    {i : Nat} {x : g.Variable} (hi : start.vars[i]? = some x)
    (hlast : ∀ j > i, start.vars[j]? ≠ some x) : rows.values.get x.id = row[i]? := by
  obtain ⟨hlt, _⟩ := List.getElem?_eq_some_iff.1 hi
  rw [h.assigns.listed i x hi hlast, getElem?_of_rowAt h.le hrow hlt]

theorem Taken.shows_iff_agrees (h : Taken start (r + 1) rows) (hrow : start.rowAt r = .ok row) :
    rows.Shows row ↔ Agrees start.vars row := by
  unfold Shows
  rw [h.vars]
  constructor
  · intro hshows i j x hi hj
    have hsame := (hshows i x hi).trans (hshows j x hj).symm
    rw [getElem?_of_rowAt h.le hrow (List.getElem?_eq_some_iff.1 hi).1,
      getElem?_of_rowAt h.le hrow (List.getElem?_eq_some_iff.1 hj).1] at hsame ⊢
    simpa [← Bool.eq_iff_iff] using hsame
  · intro hagrees i x hi
    obtain ⟨k, hk, hlast⟩ := exists_last_getElem? (List.mem_of_getElem? hi)
    rw [hagrees i k x hi hk, h.get_eq_getElem? hrow hk hlast]

/-! ## All rows -/

theorem agrees_of_nodup {vars : List g.Variable} (h : vars.Nodup) (row : Row) :
    Agrees vars row := by
  intro i j x hi hj
  obtain ⟨hlt, _⟩ := List.getElem?_eq_some_iff.1 hi
  rw [(List.getElem?_inj hlt h).1 (hi.trans hj.symm)]

/-- Two places of one variable differ in the row that has a bit at one of them only. -/
theorem exists_not_shows (hstart : start.position = 0) (hm : start.missing? = none)
    (h : ¬ start.vars.Nodup) : ∃ row rows, start.Yields row rows ∧ ¬ rows.Shows row := by
  simp only [List.nodup_iff_getElem?_ne_getElem?, not_forall, not_not] at h
  obtain ⟨i, j, hij, hj, hsame⟩ := h
  have hr : 2 ^ (start.vars.length - 1 - j) < 2 ^ start.vars.length :=
    Nat.pow_lt_pow_right Nat.one_lt_two (by omega)
  obtain ⟨row, hrow⟩ := rowAt_of_missing?_none hm (2 ^ (start.vars.length - 1 - j))
  obtain ⟨rows, hyields⟩ := yields_of_rowAt hstart hr hrow
  refine ⟨row, rows, hyields, fun hshows => ?_⟩
  obtain ⟨s, htaken, hs⟩ := exists_of_yields hstart hyields
  have hagrees := (htaken.shows_iff_agrees hs).1 hshows i j start.vars[j]
    (hsame.trans (List.getElem?_eq_getElem hj)) (List.getElem?_eq_getElem hj)
  rw [getElem?_of_rowAt hr hrow (hij.trans hj), getElem?_of_rowAt hr hrow hj,
    Nat.testBit_two_pow, Nat.testBit_two_pow_self, Option.some.injEq, decide_eq_true_iff] at hagrees
  omega

end Rows

/-! ## Rows of a table -/

namespace Tabulation

variable {t : Tabulation} {e : Expression} {rows : Rows e.graph}

theorem nodup_vars_of_rows (h : t.rows e = .ok rows) : rows.vars.Nodup ↔ t.vars.Nodup := by
  rw [← (rows_eq_ok h).1]
  refine (List.nodup_map_iff fun x y hid => ?_).symm
  exact Graph.Variable.eq_of_id (Fin.ext hid)

/-- Each row that is yielded has the bits of its number in the cells of the listed variables, and it
shows what the variables hold right after it if and only if it shows the same at all places of each
of them. So every row does exactly if no variable is repeated, unless there is no row at all. -/
theorem yields_shows_iff (h : t.rows e = .ok rows) :
    rows.vars.map (·.id.val) = t.vars ∧
    (∀ row rows', rows.Yields row rows' →
      (∃ r, rows'.position.toNat = r + 1 ∧
        ∀ i < t.vars.length, row[i]? = some (r.testBit (t.vars.length - 1 - i))) ∧
      rows'.vars = rows.vars ∧ (rows'.Shows row ↔ Rows.Agrees rows.vars row)) ∧
    ((∀ row rows', rows.Yields row rows' → rows'.Shows row) ↔
      t.vars.Nodup ∨ rows.missing?.isSome) := by
  obtain ⟨hvars, _, _, hposition⟩ := rows_eq_ok h
  refine ⟨hvars, ?_, ?_⟩
  · intro row rows' hyields
    obtain ⟨r, htaken, hrow⟩ := Rows.exists_of_yields hposition hyields
    refine ⟨⟨r, htaken.position, ?_⟩, htaken.vars, htaken.shows_iff_agrees hrow⟩
    rw [← length_vars_of_rows h]
    exact fun i hi => Rows.getElem?_of_rowAt htaken.le hrow hi
  · rw [← nodup_vars_of_rows h]
    constructor
    · intro hshows
      by_contra hnot
      obtain ⟨hrepeated, hm⟩ := not_or.1 hnot
      obtain ⟨row, rows', hyields, hnone⟩ :=
        Rows.exists_not_shows hposition (Option.not_isSome_iff_eq_none.1 hm) hrepeated
      exact hnone (hshows row rows' hyields)
    · intro hcase row rows' hyields
      obtain ⟨r, htaken, hrow⟩ := Rows.exists_of_yields hposition hyields
      rcases hcase with hnodup | hm
      · exact (htaken.shows_iff_agrees hrow).2 (Rows.agrees_of_nodup hnodup row)
      · obtain ⟨x, hx⟩ := Option.isSome_iff_exists.1 hm
        rw [Rows.rowAt_of_missing?_some hx] at hrow
        cases hrow

/-- The order of the list is free. -/
theorem yields_shows_iff_swapped :
    let e := Expression.ofFormula (.binary .implies (.var "A") (.var "B"))
    let t : Tabulation := { vars := [1, 0], nodes := [e.root.val] }
    ∃ rows, t.rows e = .ok rows ∧ rows.missing? = none ∧
      ∀ row rows', rows.Yields row rows' → rows'.Shows row := by
  intro e t
  have hready : (t.rows e).toOption.map (·.missing?.isNone) = some true := by decide +kernel
  obtain ⟨rows, hsome, hmissing⟩ := Option.map_eq_some_iff.1 hready
  have hrows : t.rows e = .ok rows := toOption_eq_some.1 hsome
  refine ⟨rows, hrows, Option.isNone_iff_eq_none.1 hmissing, ?_⟩
  exact (yields_shows_iff hrows).2.2.2 (.inl (by decide))

/-- A variable is listed twice, and what it holds after some row is not what the row shows. -/
theorem not_shows_repeated :
    let e := Expression.ofFormula (.var "A")
    let t : Tabulation := { vars := [0, 0], nodes := [e.root.val] }
    ∃ rows, t.rows e = .ok rows ∧ ∃ row rows', rows.Yields row rows' ∧ ¬ rows'.Shows row := by
  intro e t
  have hready : (t.rows e).toOption.map (·.missing?.isNone) = some true := by decide +kernel
  obtain ⟨rows, hsome, hmissing⟩ := Option.map_eq_some_iff.1 hready
  have hrows : t.rows e = .ok rows := toOption_eq_some.1 hsome
  refine ⟨rows, hrows, Rows.exists_not_shows (rows_eq_ok hrows).2.2.2
    (Option.isNone_iff_eq_none.1 hmissing) ?_⟩
  rw [nodup_vars_of_rows hrows]
  decide

end Tabulation

end Propositional
