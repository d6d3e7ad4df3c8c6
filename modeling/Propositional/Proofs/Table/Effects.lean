import Propositional.Proofs.Table.Failure

/-!
# Effects of tables

What is left of the values of an expression after a table of it has been made. Nothing but listed
variables changes. They hold the bits of the last row taken: of the last one of all if the table is
finished, of the first one if that fails, and what they held before if the request is refused.
-/

namespace Propositional

namespace Rows

variable {g : Graph} {start rows : Rows g} {c : Nat}

/-! ## Values after a row -/

theorem exists_last_getElem? {α : Type} {a : α} {as : List α} (h : a ∈ as) :
    ∃ k : Nat, as[k]? = some a ∧ ∀ k' > k, as[k']? ≠ some a := by
  induction as with
  | nil => cases h
  | cons b as ih =>
    by_cases hmem : a ∈ as
    · obtain ⟨k, hk, hlast⟩ := ih hmem
      refine ⟨k + 1, hk, fun k' hk' => ?_⟩
      obtain ⟨j, rfl⟩ := Nat.exists_eq_add_of_lt hk'
      exact hlast _ (by omega)
    · obtain rfl : a = b := (List.mem_cons.1 h).resolve_right hmem
      refine ⟨0, rfl, fun k' hk' hk => hmem ?_⟩
      obtain ⟨j, rfl⟩ := Nat.exists_eq_add_of_lt hk'
      exact List.mem_of_getElem? hk

/-- Variables that are listed all hold the same after a row whose bits are all the same. -/
theorem Assigns.get_of_mem {vars : List g.Variable} {r : Nat} {held w : Valuation g} {b : Bool}
    (h : Assigns vars r held w) (hb : ∀ i < vars.length, r.testBit i = b) {x : g.Variable}
    (hx : x ∈ vars) : w.get x.id = some b := by
  obtain ⟨k, hk, hlast⟩ := exists_last_getElem? hx
  obtain ⟨hlt, _⟩ := List.getElem?_eq_some_iff.1 hk
  rw [h.listed k x hk hlast, hb _ (by omega)]

theorem Taken.assigns {r : Nat} (h : Taken start (r + 1) rows) :
    Assigns start.vars r start.values rows.values := by
  rw [h.values]
  exact start.assigns_assign_of_lt h.le

/-! ## Values after all rows -/

theorem Taken.collectOnto_of_ok {done found : Array Row} (h : Taken start c rows)
    (hok : (rows.collectOnto done).1 = .ok found) :
    Taken start (2 ^ start.vars.length) (rows.collectOnto done).2 := by
  obtain ⟨m, hm⟩ := Nat.exists_eq_add_of_le h.le
  induction m generalizing c rows done with
  | zero =>
    rw [collectOnto_of_none (h.next?_of_eq hm.symm), hm]
    exact h
  | succ m ih =>
    obtain ⟨rows', hnext, h'⟩ := h.next?_of_lt (by omega)
    cases hrow : start.rowAt c with
    | error cause =>
      rw [hrow] at hnext
      rw [collectOnto_of_error hnext] at hok
      cases hok
    | ok row =>
      rw [hrow] at hnext
      rw [Rows.collectOnto_of_ok hnext] at hok ⊢
      exact ih h' hok (by omega)

/-- Rows that can all be evaluated leave the values of the last one. -/
theorem assigns_collect_of_none (h : rows.position = 0) (hm : rows.missing? = none) :
    Assigns rows.vars (2 ^ rows.vars.length - 1) rows.values rows.collect.2.values := by
  obtain ⟨found, hfound, _⟩ := collect_of_missing?_none h hm
  obtain ⟨done, hdone, _⟩ := map_eq_ok.1 hfound
  have htaken := (taken_zero h).collectOnto_of_ok hdone
  rw [← Nat.sub_add_cancel (Nat.one_le_two_pow (n := rows.vars.length))] at htaken
  exact htaken.assigns

/-- Rows that fail are given up after the first one. -/
theorem assigns_collect_of_some {x : g.Variable} (h : rows.position = 0)
    (hm : rows.missing? = some x) :
    Assigns rows.vars 0 rows.values rows.collect.2.values := by
  obtain ⟨rows', hnext, htaken⟩ := (taken_zero h).next?_of_lt (Nat.two_pow_pos _)
  rw [rowAt_of_missing?_some hm] at hnext
  have hcollect : rows.collect.2 = (rows.collectOnto #[]).2 := rfl
  rw [hcollect, collectOnto_of_error hnext]
  exact htaken.assigns

end Rows

/-! ## Values after a table -/

namespace Tabulation

variable {t : Tabulation} {e : Expression} {rows : Rows e.graph}

theorem finish_of_refused {error : Error} (h : t.rows e = .error error) :
    t.finish e = (.error error, e) := by
  unfold finish
  rw [h]

theorem finish_snd (h : t.rows e = .ok rows) :
    (t.finish e).2 = e.withValues rows.collect.2.values := by
  unfold finish
  rw [h]

/-- A request is refused because of what it lists. -/
theorem kind_of_rows {error : Error} (h : t.rows e = .error error) :
    error.kind = .tooManyVariables ∨ error.kind = .input := by
  unfold Tabulation.rows at h
  split at h
  · cases h
    exact .inl rfl
  · split at h
    · cases h
      exact .inr rfl
    · split at h
      · cases h
        exact .inr rfl
      · cases h

/-- A row whose bits are all the same, told by what the request lists. -/
theorem values_of_assigns (h : t.rows e = .ok rows) {r : Nat} {w : Valuation e.graph} {b : Bool}
    (hassigns : Rows.Assigns rows.vars r rows.values w)
    (hb : ∀ i < rows.vars.length, r.testBit i = b) :
    (∀ i : e.graph.Id, i.val ∉ t.vars → w.get i = e.values.get i) ∧
      ∀ x : e.graph.Variable, x.id.val ∈ t.vars → w.get x.id = some b := by
  obtain ⟨hvars, _, hvalues, _⟩ := rows_eq_ok h
  constructor
  · intro i hi
    rw [← hvalues]
    refine hassigns.unlisted i fun y hy hid => hi ?_
    rw [← hvars, ← hid]
    exact List.mem_map_of_mem hy
  · intro x hx
    exact hassigns.get_of_mem hb ((mem_vars_of_rows h).2 hx)

/-- A table changes the values of listed variables and nothing else. They are all true when it is
finished, all false when a node cannot be evaluated, and what they were when the request is refused.
While rows are taken they hold the bits of the last row taken, each variable the bit at its last
place in the list. -/
theorem finish_effect (t : Tabulation) (e : Expression) :
    (∃ v, (t.finish e).2 = e.withValues v ∧
      (∀ i : e.graph.Id, i.val ∉ t.vars → v.get i = e.values.get i) ∧
      match (t.finish e).1 with
      | .ok _ => ∀ x : e.graph.Variable, x.id.val ∈ t.vars → v.get x.id = some true
      | .error (.evaluation _) =>
        ∀ x : e.graph.Variable, x.id.val ∈ t.vars → v.get x.id = some false
      | .error error => (error.kind = .tooManyVariables ∨ error.kind = .input) ∧ v = e.values) ∧
    ∀ rows, t.rows e = .ok rows → ∀ calls,
      rows.vars.map (·.id.val) = t.vars ∧
      (Call.takenBy (2 ^ t.vars.length) 0 calls = 0 → (rows.run calls).2.values = e.values) ∧
      ∀ r, Call.takenBy (2 ^ t.vars.length) 0 calls = r + 1 →
        Rows.Assigns rows.vars r e.values (rows.run calls).2.values := by
  constructor
  · cases h : t.rows e with
    | error error =>
      rw [finish_of_refused h]
      refine ⟨e.values, rfl, fun _ _ => rfl, ?_⟩
      have hkind := kind_of_rows h
      cases error with
      | evaluation => simp [Error.kind] at hkind
      | lex | grammar | input | tooManyVariables => exact ⟨hkind, rfl⟩
    | ok rows =>
      have hposition := (rows_eq_ok h).2.2.2
      refine ⟨_, finish_snd h, ?_⟩
      cases hm : rows.missing? with
      | none =>
        obtain ⟨table, hfinish, _⟩ := finish_of_missing?_none h hm
        rw [hfinish]
        refine values_of_assigns h (Rows.assigns_collect_of_none hposition hm) fun i hi => ?_
        rw [Nat.testBit_two_pow_sub_one, decide_eq_true hi]
      | some x =>
        rw [finish_of_missing?_some h hm]
        exact values_of_assigns h (Rows.assigns_collect_of_some hposition hm) fun i _ =>
          Nat.zero_testBit i
  · intro rows h calls
    obtain ⟨hvars, _, hvalues, hposition⟩ := rows_eq_ok h
    have htaken := ((Rows.taken_zero hposition).run calls).2
    rw [length_vars_of_rows h] at htaken
    refine ⟨hvars, ?_, ?_⟩
    · intro hnone
      rw [hnone] at htaken
      rw [htaken.values, ← hvalues]
      rfl
    · intro r hr
      rw [hr] at htaken
      rw [← hvalues]
      exact htaken.assigns

/-- A variable that is listed twice. Row 4 gives it 1 and then 0. -/
theorem finish_effect_repeated :
    let e := Expression.ofFormula (.binary .xor (.var "A") (.var "B"))
    let t : Tabulation := { vars := [0, 1, 0], nodes := [e.root.val] }
    (∃ v, (t.finish e).2 = e.withValues v ∧
      ∀ x : e.graph.Variable, x.id.val ∈ t.vars → v.get x.id = some true) ∧
    ∃ rows, t.rows e = .ok rows ∧ Call.takenBy (2 ^ t.vars.length) 0 [.nth 3, .next] = 5 ∧
      Rows.Assigns rows.vars 4 e.values (rows.run [.nth 3, .next]).2.values := by
  intro e t
  have hready : (t.rows e).toOption.map (·.missing?.isNone) = some true := by decide +kernel
  obtain ⟨rows, hsome, hmissing⟩ := Option.map_eq_some_iff.1 hready
  have hrows : t.rows e = .ok rows := toOption_eq_some.1 hsome
  obtain ⟨table, hfinish, _⟩ := finish_of_missing?_none hrows (Option.isNone_iff_eq_none.1 hmissing)
  obtain ⟨⟨v, hv, _, htrue⟩, htaking⟩ := finish_effect t e
  rw [hfinish] at htrue
  obtain ⟨_, _, hassigns⟩ := htaking rows hrows [.nth 3, .next]
  exact ⟨⟨v, hv, htrue⟩, rows, hrows, rfl, hassigns 4 rfl⟩

end Tabulation

end Propositional
