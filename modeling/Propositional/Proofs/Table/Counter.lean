import Mathlib.Data.Set.Function
import Propositional.Proofs.Table.Iteration

/-!
# Counter

The words that rows are counted and numbered by. A counter whose operations are checked stops where
a word cannot hold a result or is shifted by its whole width. For a request that is accepted it
never stops, however many variables are allowed, and it goes through the states of the rows. So
everything that is computed with words is what it would be with numbers. The row numbers in their
order give all lists of bits of one length in lexicographic order.
-/

namespace Propositional

/-! ## Checked operations -/

/-- Why there is no word: the result is too large or negative, or a shift is by the whole width of a
word or more. -/
inductive Overflow where
  | tooLarge
  | negative
  | tooFar
deriving DecidableEq

namespace Checked

def add (a b : UInt64) : Except Overflow UInt64 :=
  if a.toNat + b.toNat < 2 ^ 64 then .ok (a + b) else .error .tooLarge

def sub (a b : UInt64) : Except Overflow UInt64 :=
  if b.toNat ≤ a.toNat then .ok (a - b) else .error .negative

def shiftLeft (a k : UInt64) : Except Overflow UInt64 :=
  if k.toNat < 64 then
    if a.toNat * 2 ^ k.toNat < 2 ^ 64 then .ok (a <<< k) else .error .tooLarge
  else .error .tooFar

def shiftRight (a k : UInt64) : Except Overflow UInt64 :=
  if k.toNat < 64 then .ok (a >>> k) else .error .tooFar

/-! Each operation gives the word of the number that it is to give, if there is such a word. -/

variable {a b c k : UInt64}

theorem add_eq_ok : add a b = .ok c ↔ c.toNat = a.toNat + b.toNat := by
  have hc := c.toNat_lt
  unfold add
  split
  next h =>
    rw [Except.ok.injEq, ← UInt64.toNat_inj, UInt64.toNat_add, Nat.mod_eq_of_lt h, eq_comm]
  next h =>
    refine ⟨nofun, fun heq => ?_⟩
    omega

theorem sub_eq_ok : sub a b = .ok c ↔ c.toNat + b.toNat = a.toNat := by
  unfold sub
  split
  next h =>
    rw [Except.ok.injEq, ← UInt64.toNat_inj,
      UInt64.toNat_sub_of_le _ _ (UInt64.le_iff_toNat_le.2 h)]
    omega
  next h =>
    refine ⟨nofun, fun heq => ?_⟩
    omega

theorem shiftLeft_eq_ok :
    shiftLeft a k = .ok c ↔ k.toNat < 64 ∧ c.toNat = a.toNat * 2 ^ k.toNat := by
  have hc := c.toNat_lt
  unfold shiftLeft
  split
  next hk =>
    rw [and_iff_right hk]
    split
    next h =>
      rw [Except.ok.injEq, ← UInt64.toNat_inj, UInt64.toNat_shiftLeft, Nat.mod_eq_of_lt hk,
        Nat.shiftLeft_eq, Nat.mod_eq_of_lt h, eq_comm]
    next h => exact ⟨nofun, fun heq => absurd (heq ▸ hc) h⟩
  next hk => exact ⟨nofun, fun heq => absurd heq.1 hk⟩

theorem shiftRight_eq_ok :
    shiftRight a k = .ok c ↔ k.toNat < 64 ∧ c.toNat = a.toNat / 2 ^ k.toNat := by
  unfold shiftRight
  split
  next hk =>
    rw [and_iff_right hk, Except.ok.injEq, ← UInt64.toNat_inj, UInt64.toNat_shiftRight,
      Nat.mod_eq_of_lt hk, Nat.shiftRight_eq_div_pow, eq_comm]
  next hk => exact ⟨nofun, fun heq => absurd heq.1 hk⟩

end Checked

/-! ## The counter -/

/-- How many variables are listed, the number of the next row, and how many rows there are. -/
structure Counter where
  width : UInt64
  position : UInt64
  total : UInt64

namespace Counter

/-- The greatest number of variables allowed. -/
def limit (maxVars : UInt64) : Except Overflow UInt64 :=
  (Checked.sub 64 1).map (min maxVars)

/-- In front of the first row. -/
def start (width : UInt64) : Except Overflow Counter :=
  (Checked.shiftLeft 1 width).map fun total => { width, position := 0, total }

/-- The bit of row `r` for the variable at place `i` of the list. -/
def bit (width r i : UInt64) : Except Overflow Bool := do
  let last ← Checked.sub width 1
  let place ← Checked.sub last i
  let rest ← Checked.shiftRight r place
  return rest &&& 1 == 1

def bits (width r : UInt64) : Except Overflow (List Bool) :=
  (List.range width.toNat).mapM fun i => bit width r i.toUInt64

/-- The bits of the next row and the counter after it, or none at the end. -/
def next (c : Counter) : Except Overflow (Option (List Bool × Counter)) :=
  if c.position = c.total then .ok none
  else do
    let position ← Checked.add c.position 1
    let bits ← bits c.width c.position
    return some (bits, { c with position })

/-- How many rows are still to come. -/
def left (c : Counter) : Except Overflow UInt64 :=
  Checked.sub c.total c.position

/-- The words are the numbers that they stand for: of the rows of `n` variables `k` have been
taken. -/
structure Exact (c : Counter) (n k : Nat) : Prop where
  few : n < 64
  width : c.width.toNat = n
  position : c.position.toNat = k
  total : c.total.toNat = 2 ^ n
  le : k ≤ 2 ^ n

variable {c c' : Counter} {n k : Nat} {width : UInt64}

theorem toNat_limit (maxVars : UInt64) :
    (limit maxVars).map UInt64.toNat = .ok (min maxVars.toNat 63) := by
  have hgreatest : Checked.sub 64 1 = .ok 63 := rfl
  rw [limit, hgreatest, Except.map, Except.map, UInt64.toNat_min]
  rfl

theorem exact_start (hn : n < 64) : ∃ c, start n.toUInt64 = .ok c ∧ c.Exact n 0 := by
  have hwidth := toNat_toUInt64 hn
  have htotal : Checked.shiftLeft 1 n.toUInt64 = .ok (1 <<< n.toUInt64) := by
    rw [Checked.shiftLeft_eq_ok, toNat_one_shiftLeft hn, hwidth, UInt64.toNat_one, Nat.one_mul]
    exact ⟨hn, rfl⟩
  refine ⟨_, by rw [start, htotal]; rfl, ?_⟩
  exact ⟨hn, hwidth, rfl, toNat_one_shiftLeft hn, Nat.zero_le _⟩

/-- One variable more and the number of rows could not be found. -/
example : start 64 = .error .tooFar := rfl

theorem bit_eq_ok (hwidth : width.toNat = n) (hn : n < 64) (r : UInt64) {i : Nat} (hi : i < n) :
    bit width r i.toUInt64 = .ok (r.toNat.testBit (n - 1 - i)) := by
  have hlast : Checked.sub width 1 = .ok (n - 1).toUInt64 := by
    rw [Checked.sub_eq_ok, toNat_toUInt64 (by omega), UInt64.toNat_one, hwidth]
    omega
  have hword : (n - 1 - i).toUInt64.toNat = n - 1 - i := toNat_toUInt64 (by omega)
  have hplace : Checked.sub (n - 1).toUInt64 i.toUInt64 = .ok (n - 1 - i).toUInt64 := by
    rw [Checked.sub_eq_ok, hword, toNat_toUInt64 (by omega), toNat_toUInt64 (by omega)]
    omega
  have hrest : Checked.shiftRight r (n - 1 - i).toUInt64 = .ok (r >>> (n - 1 - i).toUInt64) := by
    rw [Checked.shiftRight_eq_ok, UInt64.toNat_shiftRight, hword, Nat.mod_eq_of_lt (by omega),
      Nat.shiftRight_eq_div_pow]
    exact ⟨by omega, rfl⟩
  rw [← bit_eq_testBit r (by omega), bit, hlast]
  simp only [bind, Except.bind, hplace, hrest]
  rfl

theorem bits_eq_ok (hwidth : width.toNat = n) (hn : n < 64) (r : UInt64) :
    bits width r = .ok (binary r.toNat n) := by
  rw [binary_eq_map, bits, hwidth]
  refine mapM_eq_ok_map fun i hi => ?_
  exact bit_eq_ok hwidth hn r (List.mem_range.1 hi)

theorem Exact.unique (h : c.Exact n k) (h' : c'.Exact n k) : c = c' := by
  obtain ⟨width, position, total⟩ := c
  obtain ⟨width', position', total'⟩ := c'
  obtain rfl : width = width' := UInt64.toNat_inj.1 (h.width.trans h'.width.symm)
  obtain rfl : position = position' := UInt64.toNat_inj.1 (h.position.trans h'.position.symm)
  obtain rfl : total = total' := UInt64.toNat_inj.1 (h.total.trans h'.total.symm)
  rfl

/-- As long as rows are left the counter goes on by one. -/
theorem Exact.next_of_lt (h : c.Exact n k) (hk : k < 2 ^ n) :
    ∃ c', c.next = .ok (some (binary k n, c')) ∧ c'.Exact n (k + 1) := by
  have hbound := two_pow_lt h.few
  have hne : c.position ≠ c.total := by
    intro heq
    rw [← h.position, heq, h.total] at hk
    exact Nat.lt_irrefl _ hk
  have hsum : (c.position + 1).toNat = k + 1 := by
    rw [UInt64.toNat_add, UInt64.toNat_one, h.position, Nat.mod_eq_of_lt (by omega)]
  have hposition : Checked.add c.position 1 = .ok (c.position + 1) := by
    rw [Checked.add_eq_ok, hsum, h.position, UInt64.toNat_one]
  have hbits := bits_eq_ok h.width h.few c.position
  rw [h.position] at hbits
  refine ⟨{ c with position := c.position + 1 }, ?_, ?_⟩
  · rw [next, if_neg hne, hposition]
    simp only [bind, Except.bind, hbits]
    rfl
  · exact { h with position := hsum, le := hk }

theorem Exact.next_of_eq (h : c.Exact n k) (hk : k = 2 ^ n) : c.next = .ok none := by
  have heq : c.position = c.total := UInt64.toNat_inj.1 (by rw [h.position, h.total, hk])
  rw [next, if_pos heq]

end Counter

/-! ## Row numbers -/

section

variable {n : Nat} {r s : UInt64}

/-- Every list of bits of the right length is that of exactly one row number. -/
theorem bijOn_rowBits (hn : n < 64) :
    Set.BijOn (rowBits · n) {r | r.toNat < 2 ^ n} {bits | bits.length = n} := by
  have hbits (r : UInt64) : rowBits r n = binary r.toNat n := rowBits_eq r (Nat.le_of_lt hn)
  refine ⟨?_, ?_, ?_⟩
  · intro r _
    change (rowBits r n).length = n
    rw [hbits, length_binary]
  · intro r hr s hs h
    simp only [hbits] at h
    exact UInt64.toNat_inj.1 (eq_of_binary_eq hr hs h)
  · rintro bits rfl
    have hlt := ofBinary_lt bits
    have hword := toNat_toUInt64_of_lt hn hlt
    refine ⟨(ofBinary bits).toUInt64, ?_, ?_⟩
    · change (ofBinary bits).toUInt64.toNat < 2 ^ bits.length
      rwa [hword]
    · change rowBits _ bits.length = bits
      rw [hbits, hword, binary_ofBinary]

theorem lex_rowBits (hn : n < 64) (hr : r.toNat < 2 ^ n) (hs : s.toNat < 2 ^ n) :
    List.Lex (· < ·) (rowBits r n) (rowBits s n) ↔ r < s := by
  have hle := Nat.le_of_lt hn
  rw [rowBits_eq r hle, rowBits_eq s hle, lex_binary hr hs, UInt64.lt_iff_toNat_lt]

end

/-! ## States of rows -/

namespace Rows

variable {g : Graph} {start rows rows' : Rows g} {k : Nat} {row : Except Unassigned Row}

def counter (rows : Rows g) : Counter where
  width := rows.vars.length.toUInt64
  position := rows.position
  total := rows.total

theorem Taken.exact (h : Taken start k rows) : rows.counter.Exact start.vars.length k where
  few := start.few
  width := by rw [← h.vars]; exact toNat_toUInt64 rows.few
  position := h.position
  total := h.toNat_total
  le := h.le

theorem Taken.left_counter (h : Taken start k rows) : rows.counter.left = .ok rows.left := by
  have hle := h.le
  refine Checked.sub_eq_ok.2 ?_
  rw [h.toNat_left, h.exact.position, h.exact.total]
  omega

/-- The counter goes on as the rows do. -/
theorem Taken.next_counter (h : Taken start k rows) :
    rows.counter.next =
      .ok (rows.next?.map fun (_, rows') => (binary k start.vars.length, rows'.counter)) := by
  rcases Nat.lt_or_eq_of_le h.le with hk | hk
  · obtain ⟨rows', hnext, h'⟩ := h.next?_of_lt hk
    obtain ⟨c, hcounter, hc⟩ := h.exact.next_of_lt hk
    rw [hnext, hcounter, hc.unique h'.exact]
    rfl
  · rw [h.next?_of_eq hk, h.exact.next_of_eq hk]
    rfl

/-- A row that can be evaluated begins with the bits of its number. -/
theorem Taken.row_of_next? (h : Taken start k rows) (hnext : rows.next? = some (row, rows')) :
    ∃ values : Except Unassigned Row, row = values.map (binary k start.vars.length ++ ·) := by
  rcases Nat.lt_or_eq_of_le h.le with hk | hk
  · obtain ⟨rows₁, hnext₁, _⟩ := h.next?_of_lt hk
    obtain ⟨w, _, hrow⟩ := start.exists_rowAt_eq hk
    rw [hnext₁] at hnext
    cases hnext
    exact ⟨_, hrow⟩
  · rw [h.next?_of_eq hk] at hnext
    cases hnext

/-- The number of columns is a word if that of the nodes leaves room for 63 variables. -/
theorem columns_eq_ok (rows : Rows g) (h : rows.nodes.length < 2 ^ 64 - 63) :
    (Checked.add rows.vars.length.toUInt64 rows.nodes.length.toUInt64).map UInt64.toNat =
      .ok rows.header.length := by
  have hfew := rows.few
  have hvars := toNat_toUInt64 hfew
  have hnodes : rows.nodes.length.toUInt64.toNat = rows.nodes.length :=
    UInt64.toNat_ofNat_of_lt (by simp only [UInt64.size]; omega)
  have hheader : rows.header.length = rows.vars.length + rows.nodes.length := by simp [header]
  rw [Checked.add, if_pos (by omega), Except.map, UInt64.toNat_add, Nat.mod_eq_of_lt (by omega),
    hvars, hnodes, hheader]

end Rows

/-! ## Rows of a table -/

namespace Tabulation

variable {t : Tabulation} {e : Expression} {rows : Rows e.graph}

/-- For a request that is accepted the checked counter finds the limit whatever word is given for
it, it starts as the rows do, and in every state that calls lead to it is exact, tells how many rows
are left, and goes on to the next state with the bits that the row begins with. The bits for a row
number are found without a negative place or a shift by the width of a word. They are a bijection
from the row numbers onto the lists of one bit for each variable, and they keep the order. The
number of columns is a word for any list of nodes that fits into memory. -/
theorem rows_exact (h : t.rows e = .ok rows) :
    (∀ maxVars : UInt64, maxVars.toNat = t.maxVars →
      (Counter.limit maxVars).map UInt64.toNat = .ok t.limit) ∧
    Counter.start t.vars.length.toUInt64 = .ok rows.counter ∧
    (∀ calls,
      let state := (rows.run calls).2
      let k := Call.takenBy (2 ^ t.vars.length) 0 calls
      state.counter.Exact t.vars.length k ∧
      state.counter.left = .ok state.left ∧ state.left.toNat = 2 ^ t.vars.length - k ∧
      state.counter.next =
        .ok (state.next?.map fun (_, state') => (binary k t.vars.length, state'.counter)) ∧
      ∀ row state', state.next? = some (row, state') →
        ∃ values : Except Unassigned Row, row = values.map (binary k t.vars.length ++ ·)) ∧
    (∀ r, Counter.bits t.vars.length.toUInt64 r = .ok (rowBits r t.vars.length) ∧
      rowBits r t.vars.length = binary r.toNat t.vars.length) ∧
    Set.BijOn (rowBits · t.vars.length) {r | r.toNat < 2 ^ t.vars.length}
      {bits | bits.length = t.vars.length} ∧
    (∀ r s : UInt64, r.toNat < 2 ^ t.vars.length → s.toNat < 2 ^ t.vars.length →
      (List.Lex (· < ·) (rowBits r t.vars.length) (rowBits s t.vars.length) ↔ r < s)) ∧
    (t.nodes.length < 2 ^ 64 - 63 →
      (Checked.add t.vars.length.toUInt64 t.nodes.length.toUInt64).map UInt64.toNat =
        .ok rows.header.length) := by
  obtain ⟨-, hnodes, -, hposition⟩ := rows_eq_ok h
  have hstart := Rows.taken_zero hposition
  rw [← length_vars_of_rows h, ← hnodes, List.length_map]
  refine ⟨?_, ?_, ?_, ?_, bijOn_rowBits rows.few, fun r s => lex_rowBits rows.few,
    rows.columns_eq_ok⟩
  · intro maxVars hmax
    rw [Counter.toNat_limit, hmax, limit]
  · obtain ⟨c, hc, hexact⟩ := Counter.exact_start rows.few
    rw [hc, hexact.unique hstart.exact]
  · intro calls state k
    have htaken := (hstart.run calls).2
    refine ⟨htaken.exact, htaken.left_counter, htaken.toNat_left, htaken.next_counter, ?_⟩
    intro row state' hnext
    exact htaken.row_of_next? hnext
  · intro r
    have hbits := rowBits_eq r (Nat.le_of_lt rows.few)
    refine ⟨?_, hbits⟩
    rw [hbits]
    exact Counter.bits_eq_ok (toNat_toUInt64 rows.few) rows.few r

/-- As many variables as there can be, and as large a number allowed: the last row is still counted,
and the end is found after it. -/
theorem rows_exact_widest :
    let e := Expression.ofFormula (.var "A")
    let t : Tabulation :=
      { vars := List.replicate 63 0, nodes := [e.root.val], maxVars := 2 ^ 64 - 1 }
    ∃ rows, t.rows e = .ok rows ∧
      (Counter.limit 18446744073709551615).map UInt64.toNat = .ok 63 ∧
      rows.total.toNat = 2 ^ 63 ∧
      (rows.run [.nth (2 ^ 63 - 2)]).2.left.toNat = 1 ∧
      (rows.run [.nth (2 ^ 63 - 2), .next]).2.counter.next = .ok none := by
  intro e t
  have haccepted : (t.rows e).toOption.isSome := by decide +kernel
  obtain ⟨rows, hsome⟩ := Option.isSome_iff_exists.1 haccepted
  have hrows : t.rows e = .ok rows := toOption_eq_some.1 hsome
  obtain ⟨hlimit, -, hstates, -⟩ := rows_exact hrows
  have hn : t.vars.length = 63 := List.length_replicate
  have hlast : Call.takenBy (2 ^ 63) 0 [.nth (2 ^ 63 - 2)] = 2 ^ 63 - 1 := by
    simp [Call.takenBy, Call.taken]
  have hend : Call.takenBy (2 ^ 63) 0 [.nth (2 ^ 63 - 2), .next] = 2 ^ 63 := by
    simp [Call.takenBy, Call.taken]
  rw [hn] at hstates
  refine ⟨rows, hrows, ?_, ?_, ?_, ?_⟩
  · exact hlimit 18446744073709551615 (by decide)
  · exact (hstates []).1.total
  · rw [(hstates [.nth (2 ^ 63 - 2)]).2.2.1, hlast]
    omega
  · exact (hstates [.nth (2 ^ 63 - 2), .next]).1.next_of_eq hend

end Tabulation

end Propositional
