import Propositional.Proofs.Table.Completeness

/-!
# Iteration

Rows taken by calls in any order: one at a time, after others that are skipped, or all that are
left. Of the rows taken before, a state remembers their number and the values that the last of
them left, and these do not matter for the rows to come. So calls are answered as if the rows had
been written down and only a counter went over them.
-/

namespace Propositional

variable {g : Graph}

namespace Rows

/-! ## States -/

/-- The values after the first `c` rows: those held before, or those that the last row gave. -/
def valuesAfter (rows : Rows g) : Nat → Valuation g
  | 0 => rows.values
  | r + 1 => rows.assign r.toUInt64

/-- The rows `start` after the first `c` of them have been taken. -/
structure Taken (start : Rows g) (c : Nat) (rows : Rows g) : Prop where
  vars : rows.vars = start.vars
  nodes : rows.nodes = start.nodes
  position : rows.position.toNat = c
  values : rows.values = start.valuesAfter c

variable {start rows : Rows g} {c k : Nat}

theorem taken_zero (h : rows.position = 0) : Taken rows 0 rows where
  vars := rfl
  nodes := rfl
  position := by rw [h]; rfl
  values := rfl

theorem Taken.follows (h : Taken start c rows) : Follows start rows where
  vars := h.vars
  nodes := h.nodes
  values := by
    rw [h.values]
    cases c with
    | zero => exact fun _ _ => rfl
    | succ r => exact (start.assigns_assign r.toUInt64).unlisted

theorem Taken.le (h : Taken start c rows) : c ≤ 2 ^ start.vars.length := by
  have hle := rows.position_le
  rwa [UInt64.le_iff_toNat_le, toNat_one_shiftLeft rows.few, h.position, h.vars] at hle

theorem Taken.toNat_total (h : Taken start c rows) : rows.total.toNat = 2 ^ start.vars.length := by
  rw [Rows.toNat_total, h.vars]

theorem Taken.toNat_left (h : Taken start c rows) :
    rows.left.toNat = 2 ^ start.vars.length - c := by
  have hle : rows.position ≤ rows.total := rows.position_le
  rw [left, UInt64.toNat_sub_of_le _ _ hle, h.toNat_total, h.position]

/-! ## One row -/

theorem Taken.next?_of_lt (h : Taken start c rows) (hc : c < 2 ^ start.vars.length) :
    ∃ rows', rows.next? = some (start.rowAt c, rows') ∧ Taken start (c + 1) rows' := by
  have hlt : rows.position.toNat < 2 ^ rows.vars.length := by rwa [h.position, h.vars]
  obtain ⟨rows', hnext, hfollows, hposition, hvalues⟩ := Rows.next?_of_lt hlt
  rw [h.position, h.follows.rowAt] at hnext
  refine ⟨rows', hnext, ?_⟩
  constructor
  · rw [hfollows.vars, h.vars]
  · rw [hfollows.nodes, h.nodes]
  · rw [hposition, h.position]
  · have hword : c.toUInt64 = rows.position := by
      rw [← h.position]
      exact UInt64.ofNat_toNat
    rw [hvalues, h.follows.assign, valuesAfter, hword]

theorem Taken.next?_of_eq (h : Taken start c rows) (hc : c = 2 ^ start.vars.length) :
    rows.next? = none :=
  Rows.next?_of_eq (by rw [h.position, h.vars, hc])

/-! ## Skipped rows -/

theorem Taken.nth_of_lt (h : Taken start c rows) (hk : c + k < 2 ^ start.vars.length) :
    ∃ rows', rows.nth k = (some (start.rowAt (c + k)), rows') ∧
      Taken start (c + k + 1) rows' := by
  induction k generalizing c rows with
  | zero =>
    obtain ⟨rows', hnext, h'⟩ := h.next?_of_lt hk
    refine ⟨rows', ?_, h'⟩
    rw [nth, hnext]
    rfl
  | succ k ih =>
    obtain ⟨rows₁, hnext, h₁⟩ := h.next?_of_lt (by omega)
    obtain ⟨rows', hnth, h'⟩ := ih h₁ (by omega)
    have hsum : c + 1 + k = c + (k + 1) := by omega
    rw [hsum] at hnth h'
    refine ⟨rows', ?_, h'⟩
    rw [nth, hnext]
    exact hnth

/-- To skip more rows than are left takes them all. -/
theorem Taken.nth_of_le (h : Taken start c rows) (hk : 2 ^ start.vars.length ≤ c + k) :
    ∃ rows', rows.nth k = (none, rows') ∧ Taken start (2 ^ start.vars.length) rows' := by
  induction k generalizing c rows with
  | zero =>
    obtain rfl : c = 2 ^ start.vars.length := Nat.le_antisymm h.le hk
    refine ⟨rows, ?_, h⟩
    rw [nth, h.next?_of_eq rfl]
  | succ k ih =>
    rcases Nat.lt_or_eq_of_le h.le with hc | rfl
    · obtain ⟨rows₁, hnext, h₁⟩ := h.next?_of_lt hc
      obtain ⟨rows', hnth, h'⟩ := ih h₁ (by omega)
      refine ⟨rows', ?_, h'⟩
      rw [nth, hnext]
      exact hnth
    · refine ⟨rows, ?_, h⟩
      rw [nth, h.next?_of_eq rfl]

/-! ## All rows left -/

section

variable {β : Type} {f : β → Except Unassigned Row → β} {b : β}

theorem fold_of_none (h : rows.next? = none) : rows.fold f b = (b, rows) := by
  unfold fold
  split <;> simp_all

theorem fold_of_some {rows' : Rows g} {row : Except Unassigned Row}
    (h : rows.next? = some (row, rows')) : rows.fold f b = rows'.fold f (f b row) := by
  conv => lhs; unfold fold
  split <;> simp_all

theorem Taken.fold {m : Nat} (h : Taken start c rows) (hm : c + m = 2 ^ start.vars.length) :
    ∃ rows', rows.fold f b = (((List.range' c m).map start.rowAt).foldl f b, rows') ∧
      Taken start (2 ^ start.vars.length) rows' := by
  induction m generalizing c rows b with
  | zero =>
    obtain rfl : c = 2 ^ start.vars.length := hm
    exact ⟨rows, fold_of_none (h.next?_of_eq rfl), h⟩
  | succ m ih =>
    obtain ⟨rows₁, hnext, h₁⟩ := h.next?_of_lt (by omega)
    obtain ⟨rows', hfold, h'⟩ := ih h₁ (by omega)
    exact ⟨rows', (fold_of_some hnext).trans hfold, h'⟩

end

theorem Taken.count (h : Taken start c rows) :
    ∃ rows', rows.count = (2 ^ start.vars.length - c, rows') ∧
      Taken start (2 ^ start.vars.length) rows' := by
  obtain ⟨rows', hfold, h'⟩ := h.fold (f := fun n _ => n + 1) (b := 0) (Nat.add_sub_cancel' h.le)
  refine ⟨rows', ?_, h'⟩
  rw [Rows.count, hfold, List.foldl_add_const]
  simp

theorem Taken.last (h : Taken start c rows) :
    ∃ rows', rows.last =
        (if c < 2 ^ start.vars.length then some (start.rowAt (2 ^ start.vars.length - 1)) else none,
          rows') ∧
      Taken start (2 ^ start.vars.length) rows' := by
  obtain ⟨rows', hfold, h'⟩ :=
    h.fold (f := fun _ row => some row) (b := none) (Nat.add_sub_cancel' h.le)
  refine ⟨rows', ?_, h'⟩
  rw [Rows.last, hfold]
  split
  next hc =>
    have hlast : 2 ^ start.vars.length - c = (2 ^ start.vars.length - 1 - c) + 1 := by omega
    have hend : c + (2 ^ start.vars.length - 1 - c) = 2 ^ start.vars.length - 1 := by omega
    rw [hlast, List.range'_1_concat, List.map_append, List.foldl_append, hend]
    rfl
  next hc =>
    have hnone : 2 ^ start.vars.length - c = 0 := by omega
    rw [hnone]
    rfl

end Rows

/-! ## Calls -/

/-- What can be asked of rows while they are taken. -/
inductive Call where
  | next
  | nth (k : Nat)
  | bounds
  | total
  | count
  | last

/-- A row if there is one, bounds on the number of rows left, or a number of rows. -/
inductive Answer where
  | row (row : Option (Except Unassigned Row))
  | bounds (lower : Nat) (upper : Option Nat)
  | number (n : Nat)

namespace Rows

/-- The answer to a call, and the rows after it. -/
def call (rows : Rows g) : Call → Answer × Rows g
  | .next =>
    match rows.next? with
    | none => (.row none, rows)
    | some (row, rows') => (.row (some row), rows')
  | .nth k => (rows.nth k).map .row id
  | .bounds => (.bounds rows.left.toNat (some rows.left.toNat), rows)
  | .total => (.number rows.total.toNat, rows)
  | .count => (rows.count.map .number id)
  | .last => (rows.last.map .row id)

/-- The answers to calls one after the other, and the rows after them. -/
def run (rows : Rows g) : List Call → List Answer × Rows g
  | [] => ([], rows)
  | call :: calls =>
    let (answer, rows) := rows.call call
    let (answers, rows) := rows.run calls
    (answer :: answers, rows)

end Rows

namespace Call

/-- How many of `total` rows have been taken after a call, if `c` had been before. -/
def taken (total c : Nat) : Call → Nat
  | next => min (c + 1) total
  | nth k => min (c + k + 1) total
  | bounds | .total => c
  | count | last => total

/-- What is to be answered when `c` of `total` given rows have been taken. -/
def answer (total : Nat) (row : Nat → Except Unassigned Row) (c : Nat) : Call → Answer
  | next => .row (if c < total then some (row c) else none)
  | nth k => .row (if c + k < total then some (row (c + k)) else none)
  | bounds => .bounds (total - c) (some (total - c))
  | .total => .number total
  | count => .number (total - c)
  | last => .row (if c < total then some (row (total - 1)) else none)

/-- How many rows have been taken after calls. -/
def takenBy (total c : Nat) (calls : List Call) : Nat :=
  calls.foldl (fun c call => call.taken total c) c

/-- What is to be answered to calls. -/
def answers (total : Nat) (row : Nat → Except Unassigned Row) : Nat → List Call → List Answer
  | _, [] => []
  | c, call :: calls => call.answer total row c :: answers total row (call.taken total c) calls

theorem taken_total (total : Nat) (call : Call) : call.taken total total = total := by
  cases call with
  | next => exact Nat.min_eq_right (Nat.le_succ _)
  | nth k => exact Nat.min_eq_right (by omega)
  | bounds | total | count | last => rfl

/-- When all rows have been taken no call finds one. -/
theorem answers_total {total : Nat} {row : Nat → Except Unassigned Row} {calls : List Call}
    {found : Option (Except Unassigned Row)} (h : .row found ∈ answers total row total calls) :
    found = none := by
  induction calls with
  | nil => cases h
  | cons call calls ih =>
    unfold answers at h
    rw [taken_total, List.mem_cons] at h
    rcases h with hcall | hcalls
    · cases call with
      | next | nth | last =>
        simp only [answer] at hcall
        rw [Answer.row.inj hcall, if_neg (by omega)]
      | bounds | total | count => cases hcall
    · exact ih hcalls

end Call

namespace Rows

variable {start rows : Rows g} {c : Nat}

/-- A call moves the counter and is answered by it. -/
theorem Taken.call (h : Taken start c rows) (call : Call) :
    (rows.call call).1 = call.answer (2 ^ start.vars.length) start.rowAt c ∧
      Taken start (call.taken (2 ^ start.vars.length) c) (rows.call call).2 := by
  have hle := h.le
  cases call with
  | next =>
    simp only [Rows.call, Call.answer, Call.taken]
    by_cases hc : c < 2 ^ start.vars.length
    · obtain ⟨rows', hnext, h'⟩ := h.next?_of_lt hc
      rw [hnext, if_pos hc, Nat.min_eq_left hc]
      exact ⟨rfl, h'⟩
    · obtain rfl : c = 2 ^ start.vars.length := by omega
      rw [h.next?_of_eq rfl, if_neg hc, Nat.min_eq_right (Nat.le_succ _)]
      exact ⟨rfl, h⟩
  | nth k =>
    simp only [Rows.call, Call.answer, Call.taken]
    by_cases hk : c + k < 2 ^ start.vars.length
    · obtain ⟨rows', hnth, h'⟩ := h.nth_of_lt hk
      rw [hnth, if_pos hk, Nat.min_eq_left hk]
      exact ⟨rfl, h'⟩
    · obtain ⟨rows', hnth, h'⟩ := h.nth_of_le (Nat.not_lt.1 hk)
      rw [hnth, if_neg hk, Nat.min_eq_right (by omega)]
      exact ⟨rfl, h'⟩
  | bounds =>
    simp only [Rows.call, Call.answer, Call.taken]
    rw [h.toNat_left]
    exact ⟨rfl, h⟩
  | total =>
    simp only [Rows.call, Call.answer, Call.taken]
    rw [h.toNat_total]
    exact ⟨rfl, h⟩
  | count =>
    obtain ⟨rows', hcount, h'⟩ := h.count
    simp only [Rows.call, Call.answer, Call.taken]
    rw [hcount]
    exact ⟨rfl, h'⟩
  | last =>
    obtain ⟨rows', hlast, h'⟩ := h.last
    simp only [Rows.call, Call.answer, Call.taken]
    rw [hlast]
    exact ⟨rfl, h'⟩

/-- Any calls move the counter and are answered by it. -/
theorem Taken.run (h : Taken start c rows) (calls : List Call) :
    (rows.run calls).1 = Call.answers (2 ^ start.vars.length) start.rowAt c calls ∧
      Taken start (Call.takenBy (2 ^ start.vars.length) c calls) (rows.run calls).2 := by
  induction calls generalizing c rows with
  | nil => exact ⟨rfl, h⟩
  | cons call calls ih =>
    obtain ⟨hanswer, h₁⟩ := h.call call
    obtain ⟨hanswers, h'⟩ := ih h₁
    refine ⟨?_, h'⟩
    unfold Call.answers
    rw [← hanswer, ← hanswers]
    rfl

/-- The row with a given number, told by the values under which its nodes are evaluated. -/
theorem exists_rowAt_eq (rows : Rows g) {r : Nat} (hr : r < 2 ^ rows.vars.length) :
    ∃ w, Assigns rows.vars r rows.values w ∧
      rows.rowAt r =
        (rows.nodes.mapM (g.evaluate w)).map (binary r rows.vars.length ++ ·) := by
  refine ⟨_, rows.assigns_assign_of_lt hr, ?_⟩
  rw [rowAt, row, rowBits_eq _ (Nat.le_of_lt rows.few), toNat_toUInt64_of_lt rows.few hr]

end Rows

/-! ## Rows of a table -/

namespace Tabulation

variable {t : Tabulation} {e : Expression} {rows : Rows e.graph}

theorem length_vars_of_rows (h : t.rows e = .ok rows) : rows.vars.length = t.vars.length := by
  rw [← (rows_eq_ok h).1, List.length_map]

/-- The rows of a request that is accepted answer calls like a counter that runs up to the number of
all rows, whatever was called before, and the rows that they answer with are those of the table. A
row is determined by its number, by what is listed and by the values held before the first one. No
call finds a row again after all have been taken. -/
theorem rows_run (h : t.rows e = .ok rows) (calls : List Call) :
    (rows.run calls).1 = Call.answers (2 ^ t.vars.length) rows.rowAt 0 calls ∧
    (rows.run calls).2.position.toNat = Call.takenBy (2 ^ t.vars.length) 0 calls ∧
    (rows.vars.map (·.id.val) = t.vars ∧ rows.nodes.map (·.val) = t.nodes ∧
      ∀ r < 2 ^ t.vars.length, ∃ w, Rows.Assigns rows.vars r e.values w ∧
        rows.rowAt r =
          (rows.nodes.mapM (e.graph.evaluate w)).map (binary r t.vars.length ++ ·)) ∧
    (t.finish e).1 =
      (((List.range (2 ^ t.vars.length)).mapM rows.rowAt).mapError .evaluation).map (fun found =>
        { header := rows.header, rows := found.map (·.map Table.digit) }) ∧
    (Call.takenBy (2 ^ t.vars.length) 0 calls = 2 ^ t.vars.length →
      ∀ later found, .row found ∈ ((rows.run calls).2.run later).1 → found = none) := by
  obtain ⟨hvars, hnodes, hvalues, hposition⟩ := rows_eq_ok h
  have hstart := Rows.taken_zero hposition
  obtain ⟨hanswers, htaken⟩ := hstart.run calls
  rw [length_vars_of_rows h] at hanswers htaken
  refine ⟨hanswers, htaken.position, ⟨hvars, hnodes, ?_⟩, ?_, ?_⟩
  · intro r hr
    rw [← length_vars_of_rows h] at hr ⊢
    rw [← hvalues]
    exact rows.exists_rowAt_eq hr
  · rw [finish_eq h, Rows.collect_of_start hposition, length_vars_of_rows h]
  · intro hall later found hfound
    rw [hall] at htaken
    rw [(htaken.run later).1, length_vars_of_rows h] at hfound
    exact Call.answers_total hfound

/-- Every row of this table fails, for `C` is neither listed nor set, and counts as a row taken. -/
theorem rows_run_skipping :
    let e := Expression.ofFormula (.binary .and (.var "A") (.binary .or (.var "B") (.var "C")))
    let t : Tabulation := { vars := [0, 1], nodes := [e.root.val] }
    ∃ rows, t.rows e = .ok rows ∧
      (rows.run [.next, .nth 1, .bounds, .total, .count, .next]).1 =
        [.row (some (rows.rowAt 0)), .row (some (rows.rowAt 2)), .bounds 1 (some 1), .number 4,
          .number 1, .row none] ∧
      (rows.run [.next, .nth 1, .bounds, .total, .count, .next]).2.position.toNat = 4 := by
  intro e t
  have haccepted : (t.rows e).toOption.isSome := by decide +kernel
  obtain ⟨rows, hsome⟩ := Option.isSome_iff_exists.1 haccepted
  have hrows : t.rows e = .ok rows := toOption_eq_some.1 hsome
  obtain ⟨hanswers, hposition, _⟩ :=
    rows_run hrows [.next, .nth 1, .bounds, .total, .count, .next]
  exact ⟨rows, hrows, hanswers, hposition⟩

end Tabulation

end Propositional
