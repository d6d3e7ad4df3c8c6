import Propositional.Proofs.Graph.Variables
import Propositional.Proofs.Network.Evaluation
import Propositional.Proofs.Result
import Propositional.Proofs.Table.Bits

/-!
# Rows

What a row consists of does not depend on the rows before it, since each row sets all listed
variables anew and no row sets another one. So the rows that are collected are those of the
numbers in order.
-/

namespace Propositional

variable {g : Graph}

/-! ## Setting variables in order -/

namespace Valuation

/-- The valuation after variables have been set one after the other. -/
def setAll (v : Valuation g) (pairs : List (g.Variable × Bool)) : Valuation g :=
  pairs.foldl (fun v (x, b) => v.set x (some b)) v

/-- Two valuations that differ in listed variables at most. -/
def SameOff (vars : List g.Variable) (v w : Valuation g) : Prop :=
  ∀ i, (∀ x ∈ vars, x.id ≠ i) → v.get i = w.get i

theorem setAll_cons (v : Valuation g) (x : g.Variable) (b : Bool)
    (pairs : List (g.Variable × Bool)) :
    v.setAll ((x, b) :: pairs) = (v.set x (some b)).setAll pairs := rfl

theorem sameOff_setAll (v : Valuation g) (pairs : List (g.Variable × Bool)) :
    SameOff (pairs.map (·.1)) (v.setAll pairs) v := by
  induction pairs generalizing v with
  | nil => exact fun _ _ => rfl
  | cons p pairs ih =>
    intro i hi
    obtain ⟨hp, hpairs⟩ := List.forall_mem_cons.1 hi
    rw [setAll_cons, ih _ i hpairs, get_set, if_neg (Ne.symm hp)]

/-- Of several values for a variable the last one counts. -/
theorem get_setAll_last {pairs : List (g.Variable × Bool)} {k : Nat} {x : g.Variable} {b : Bool}
    (hk : pairs[k]? = some (x, b))
    (hlast : ∀ k' > k, ∀ b', pairs[k']? ≠ some (x, b')) (v : Valuation g) :
    (v.setAll pairs).get x.id = some b := by
  induction pairs generalizing k v with
  | nil => simp at hk
  | cons p pairs ih =>
    obtain ⟨y, c⟩ := p
    cases k with
    | zero =>
      obtain ⟨rfl, rfl⟩ : y = x ∧ c = b := by simpa using hk
      have hoff : ∀ z ∈ pairs.map (·.1), z.id ≠ y.id := by
        intro z hz hid
        obtain ⟨⟨z', d⟩, hmem, rfl⟩ := List.mem_map.1 hz
        obtain ⟨j, hj⟩ := List.mem_iff_getElem?.1 hmem
        obtain rfl : z' = y := Graph.Variable.eq_of_id hid
        exact hlast (j + 1) (Nat.succ_pos j) d hj
      rw [setAll_cons, sameOff_setAll _ pairs _ hoff, get_set, if_pos rfl]
    | succ k =>
      rw [setAll_cons]
      exact ih hk (fun k' hk' => hlast (k' + 1) (Nat.succ_lt_succ hk')) _

theorem exists_get_setAll {pairs : List (g.Variable × Bool)} {x : g.Variable}
    (h : x ∈ pairs.map (·.1)) (v : Valuation g) : ∃ b, (v.setAll pairs).get x.id = some b := by
  induction pairs generalizing v with
  | nil => simp at h
  | cons p pairs ih =>
    obtain ⟨y, c⟩ := p
    rw [setAll_cons]
    by_cases hx : x ∈ pairs.map (·.1)
    · exact ih hx _
    · obtain rfl : x = y := by simpa [hx] using h
      refine ⟨c, ?_⟩
      rw [sameOff_setAll _ pairs, get_set, if_pos rfl]
      intro z hz hid
      rw [Graph.Variable.eq_of_id hid] at hz
      exact hx hz

/-- Nothing is left of what the variables set held before. -/
theorem setAll_congr {pairs : List (g.Variable × Bool)} {v w : Valuation g}
    (h : SameOff (pairs.map (·.1)) v w) : v.setAll pairs = w.setAll pairs := by
  induction pairs generalizing v w with
  | nil => exact ext fun i => h i nofun
  | cons p pairs ih =>
    rw [setAll_cons, setAll_cons]
    refine ih fun i hi => ?_
    rw [get_set, get_set]
    split
    · rfl
    next hne => exact h i (List.forall_mem_cons.2 ⟨Ne.symm hne, hi⟩)

end Valuation

namespace Rows

/-! ## The values of a row -/

/-- What a row with a given number is evaluated under: each listed variable has the bit at its
last place in the list, and all else is as it was held. -/
structure Assigns (vars : List g.Variable) (r : Nat) (held w : Valuation g) : Prop where
  listed : ∀ k x, vars[k]? = some x → (∀ k' > k, vars[k']? ≠ some x) →
    w.get x.id = some (r.testBit (vars.length - 1 - k))
  unlisted : Valuation.SameOff vars w held

theorem assign_eq (rows : Rows g) (r : UInt64) :
    rows.assign r =
      rows.values.setAll (rows.vars.zip (binary r.toNat rows.vars.length)) := by
  rw [← rowBits_eq r (Nat.le_of_lt rows.few)]
  rfl

theorem map_fst_zip_binary (vars : List g.Variable) (r : Nat) :
    (vars.zip (binary r vars.length)).map (·.1) = vars :=
  List.map_fst_zip (by simp)

theorem assigns_assign (rows : Rows g) (r : UInt64) :
    Assigns rows.vars r.toNat rows.values (rows.assign r) := by
  rw [assign_eq]
  constructor
  · intro k x hk hlast
    have hlt : k < rows.vars.length := (List.getElem?_eq_some_iff.1 hk).1
    refine Valuation.get_setAll_last (List.getElem?_zip_eq_some.2 ⟨hk, getElem?_binary _ hlt⟩) ?_ _
    intro k' hk' b hb
    exact hlast k' hk' (List.getElem?_zip_eq_some.1 hb).1
  · intro i hi
    refine Valuation.sameOff_setAll _ _ i ?_
    rwa [map_fst_zip_binary]

theorem assigns_assign_of_lt (rows : Rows g) {r : Nat} (hr : r < 2 ^ rows.vars.length) :
    Assigns rows.vars r rows.values (rows.assign r.toUInt64) := by
  have hassigns := rows.assigns_assign r.toUInt64
  rwa [toNat_toUInt64_of_lt rows.few hr] at hassigns

/-- The row with a given number. -/
def rowAt (rows : Rows g) (r : Nat) : Except Unassigned Row :=
  rows.row r.toUInt64 (rows.assign r.toUInt64)

/-- A row shows the bits of its number and what the nodes come to. -/
theorem rowAt_eq_ok {rows : Rows g} {r : Nat} (hr : r < 2 ^ rows.vars.length) {value : g.Id → Bool}
    (h : ∀ i ∈ rows.nodes, g.evaluate (rows.assign r.toUInt64) i = .ok (value i)) :
    rows.rowAt r = .ok (binary r rows.vars.length ++ rows.nodes.map value) := by
  unfold rowAt row
  rw [mapM_eq_ok_map h, rowBits_eq _ (Nat.le_of_lt rows.few), toNat_toUInt64_of_lt rows.few hr]
  rfl

/-! ## From row to row -/

/-- A later state of the same rows. -/
structure Follows (rows rows' : Rows g) : Prop where
  vars : rows'.vars = rows.vars
  nodes : rows'.nodes = rows.nodes
  values : Valuation.SameOff rows.vars rows'.values rows.values

theorem Follows.assign {rows rows' : Rows g} (h : Follows rows rows') (r : UInt64) :
    rows'.assign r = rows.assign r := by
  rw [assign_eq, assign_eq, h.vars, Valuation.setAll_congr (w := rows.values)]
  rw [map_fst_zip_binary]
  exact h.values

/-- A row does not depend on the rows before it. -/
theorem Follows.rowAt {rows rows' : Rows g} (h : Follows rows rows') (r : Nat) :
    rows'.rowAt r = rows.rowAt r := by
  unfold Rows.rowAt row
  rw [h.assign, h.vars, h.nodes]

theorem toNat_total (rows : Rows g) : rows.total.toNat = 2 ^ rows.vars.length :=
  toNat_one_shiftLeft rows.few

theorem next?_of_eq {rows : Rows g} (h : rows.position.toNat = 2 ^ rows.vars.length) :
    rows.next? = none := by
  unfold next?
  rw [dif_pos]
  rw [← UInt64.toNat_inj, toNat_total, h]

/-- As long as rows are left, the next one is the one with the number reached. -/
theorem next?_of_lt {rows : Rows g} (h : rows.position.toNat < 2 ^ rows.vars.length) :
    ∃ rows', rows.next? = some (rows.rowAt rows.position.toNat, rows') ∧ Follows rows rows' ∧
      rows'.position.toNat = rows.position.toNat + 1 ∧
      rows'.values = rows.assign rows.position := by
  have hne : rows.position ≠ rows.total := by
    intro heq
    rw [heq, toNat_total] at h
    omega
  have hposition : rows.position.toNat.toUInt64 = rows.position := UInt64.ofNat_toNat
  unfold next?
  rw [dif_neg hne, rowAt, hposition]
  refine ⟨_, rfl, ⟨rfl, rfl, (rows.assigns_assign _).unlisted⟩, ?_, rfl⟩
  have hbound := two_pow_lt rows.few
  rw [UInt64.toNat_add, UInt64.toNat_one]
  omega

/-! ## All rows -/

theorem collectOnto_of_none {rows : Rows g} (h : rows.next? = none) (done : Array Row) :
    rows.collectOnto done = (.ok done, rows) := by
  unfold collectOnto
  split <;> simp_all

theorem collectOnto_of_error {rows rows' : Rows g} {e : Unassigned}
    (h : rows.next? = some (.error e, rows')) (done : Array Row) :
    rows.collectOnto done = (.error e, rows') := by
  unfold collectOnto
  split <;> simp_all

theorem collectOnto_of_ok {rows rows' : Rows g} {row : Row}
    (h : rows.next? = some (.ok row, rows')) (done : Array Row) :
    rows.collectOnto done = rows'.collectOnto (done.push row) := by
  conv => lhs; unfold collectOnto
  split <;> simp_all

/-- The rows collected are those of the numbers left, in order, up to the first that fails. -/
theorem collectOnto_eq {rows : Rows g} {m : Nat}
    (h : rows.position.toNat + m = 2 ^ rows.vars.length) (done : Array Row) :
    (rows.collectOnto done).1 =
      ((List.range' rows.position.toNat m).mapM rows.rowAt).map (done ++ ·.toArray) := by
  induction m generalizing rows done with
  | zero =>
    rw [collectOnto_of_none (next?_of_eq h)]
    simp [pure, Except.pure, Except.map]
  | succ m ih =>
    obtain ⟨rows', hnext, hfollows, hposition, _⟩ :=
      next?_of_lt (show rows.position.toNat < _ by omega)
    rw [List.range'_succ, List.mapM_cons]
    cases hrow : rows.rowAt rows.position.toNat with
    | error e =>
      rw [hrow] at hnext
      rw [collectOnto_of_error hnext]
      rfl
    | ok row =>
      rw [hrow] at hnext
      have hleft : rows'.position.toNat + m = 2 ^ rows'.vars.length := by
        rw [hfollows.vars]
        omega
      rw [collectOnto_of_ok hnext, ih hleft, hposition, funext hfollows.rowAt]
      cases (List.range' (rows.position.toNat + 1) m).mapM rows.rowAt with
      | error e => rfl
      | ok found => simp [bind, Except.bind, pure, Except.pure, Except.map]

theorem collect_eq {rows : Rows g} {m : Nat}
    (h : rows.position.toNat + m = 2 ^ rows.vars.length) :
    rows.collect.1 = (List.range' rows.position.toNat m).mapM rows.rowAt := by
  have hcollect : rows.collect.1 = (rows.collectOnto #[]).1.map Array.toList := rfl
  rw [hcollect, collectOnto_eq h]
  cases (List.range' rows.position.toNat m).mapM rows.rowAt <;> simp [Except.map]

theorem collect_of_start {rows : Rows g} (h : rows.position = 0) :
    rows.collect.1 = (List.range (2 ^ rows.vars.length)).mapM rows.rowAt := by
  have hzero : rows.position.toNat = 0 := by rw [h]; rfl
  rw [collect_eq (m := 2 ^ rows.vars.length) (by omega), hzero, List.range_eq_range']

/-- In a row only those variables hold no value that held none before and are not listed. -/
theorem get_assign_eq_none {rows : Rows g} {r : UInt64} {x : g.Variable} :
    (rows.assign r).get x.id = none ↔ x ∉ rows.vars ∧ rows.values.get x.id = none := by
  by_cases hmem : x ∈ rows.vars
  · obtain ⟨b, hb⟩ : ∃ b, (rows.assign r).get x.id = some b := by
      rw [assign_eq]
      apply Valuation.exists_get_setAll
      rwa [map_fst_zip_binary]
    simp [hb, hmem]
  · have hunlisted : (rows.assign r).get x.id = rows.values.get x.id := by
      apply (rows.assigns_assign r).unlisted
      intro y hy hid
      rw [Graph.Variable.eq_of_id hid] at hy
      exact hmem hy
    simp [hunlisted, hmem]

/-- What the rows need: a value for every variable that a node reaches and that is not listed. -/
def Ready (rows : Rows g) : Prop :=
  ∀ i ∈ rows.nodes, ∀ x : g.Variable, g.Reaches i x.id → x ∉ rows.vars →
    ∃ b, rows.values.get x.id = some b

theorem Ready.evaluate_ok {rows : Rows g} (h : rows.Ready) {i : g.Id} (hi : i ∈ rows.nodes)
    (r : UInt64) : ∃ b, g.evaluate (rows.assign r) i = .ok b := by
  apply Graph.evaluate_ok_of_set
  intro x hx
  apply Option.ne_none_iff_exists'.1
  intro hnone
  obtain ⟨hmem, hunset⟩ := get_assign_eq_none.1 hnone
  obtain ⟨b, hb⟩ := h i hi x hx hmem
  rw [hunset] at hb
  cases hb

end Rows

end Propositional
