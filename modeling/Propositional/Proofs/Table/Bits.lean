import Mathlib.Algebra.Group.Nat.Defs
import Propositional.Table.Rows

/-!
# Bits

The numbers below a power of two and the lists of bits of one length name each other, and the order
of the numbers is the lexicographic order of the lists. Row numbers are words of 64 bits, whose
shifts and sums agree with those of the natural numbers as far as rows go.
-/

namespace Propositional

/-! ## Binary numbers -/

/-- The last `n` bits of a number, most significant first. -/
def binary (r : Nat) : Nat → List Bool
  | 0 => []
  | n + 1 => r.testBit n :: binary r n

/-- The number that bits spell, most significant first. -/
def ofBinary : List Bool → Nat
  | [] => 0
  | b :: bits => 2 ^ bits.length * b.toNat + ofBinary bits

@[simp] theorem length_binary (r n : Nat) : (binary r n).length = n := by
  induction n with
  | zero => rfl
  | succ n ih => rw [binary, List.length_cons, ih]

theorem getElem?_binary (r : Nat) {n k : Nat} (h : k < n) :
    (binary r n)[k]? = some (r.testBit (n - 1 - k)) := by
  induction n generalizing k with
  | zero => omega
  | succ n ih =>
    cases k with
    | zero => rfl
    | succ k =>
      have hk : n + 1 - 1 - (k + 1) = n - 1 - k := by omega
      rw [binary, List.getElem?_cons_succ, ih (by omega), hk]

theorem binary_eq_map (r n : Nat) :
    binary r n = (List.range n).map fun i => r.testBit (n - 1 - i) := by
  refine List.ext_getElem? fun i => ?_
  by_cases hi : i < n
  · rw [getElem?_binary r hi, List.getElem?_map, List.getElem?_range hi, Option.map_some]
  · rw [List.getElem?_eq_none, List.getElem?_eq_none] <;> simpa using hi

theorem binary_congr {r s n : Nat} (h : ∀ k < n, r.testBit k = s.testBit k) :
    binary r n = binary s n := by
  induction n with
  | zero => rfl
  | succ n ih => rw [binary, binary, h n (Nat.lt_succ_self n), ih fun k hk => h k (by omega)]

theorem ofBinary_lt (bits : List Bool) : ofBinary bits < 2 ^ bits.length := by
  induction bits with
  | nil => exact Nat.one_pos
  | cons b bits ih =>
    rw [ofBinary, List.length_cons, Nat.pow_succ]
    cases b <;> simp only [Bool.toNat_false, Bool.toNat_true] <;> omega

/-- Bits are those of the number that they spell. -/
theorem binary_ofBinary (bits : List Bool) : binary (ofBinary bits) bits.length = bits := by
  induction bits with
  | nil => rfl
  | cons b bits ih =>
    have hbit := Nat.testBit_two_pow_mul_add b.toNat (ofBinary_lt bits)
    rw [List.length_cons, binary, ofBinary, hbit]
    have hrest : binary (2 ^ bits.length * b.toNat + ofBinary bits) bits.length =
        binary (ofBinary bits) bits.length := by
      refine binary_congr fun k hk => ?_
      rw [hbit, if_pos hk]
    rw [hrest, ih]
    cases b <;> simp

theorem eq_of_binary_eq {r s n : Nat} (hr : r < 2 ^ n) (hs : s < 2 ^ n)
    (h : binary r n = binary s n) : r = s := by
  apply Nat.eq_of_testBit_eq
  intro k
  by_cases hk : k < n
  · have hi : n - 1 - k < n := by omega
    have hk' : n - 1 - (n - 1 - k) = k := by omega
    have hbit := getElem?_binary r hi
    rw [h, getElem?_binary s hi, hk'] at hbit
    exact (Option.some.inj hbit).symm
  · have hle : 2 ^ n ≤ 2 ^ k := Nat.pow_le_pow_right Nat.two_pos (by omega)
    rw [Nat.testBit_lt_two_pow (by omega), Nat.testBit_lt_two_pow (by omega)]

/-- A number is that of its bits. -/
theorem ofBinary_binary {r n : Nat} (h : r < 2 ^ n) : ofBinary (binary r n) = r := by
  have hlt := ofBinary_lt (binary r n)
  have hbits := binary_ofBinary (binary r n)
  rw [length_binary] at hlt hbits
  exact eq_of_binary_eq hlt h hbits

/-- Every list of bits belongs to exactly one row. -/
theorem exists_unique_binary (bits : List Bool) :
    ∃ r < 2 ^ bits.length, binary r bits.length = bits ∧
      ∀ s < 2 ^ bits.length, binary s bits.length = bits → s = r := by
  refine ⟨ofBinary bits, ofBinary_lt bits, binary_ofBinary bits, ?_⟩
  intro s hs h
  exact eq_of_binary_eq hs (ofBinary_lt bits) (h.trans (binary_ofBinary bits).symm)

/-! ## Order -/

/-- Lists of bits of one length are in lexicographic order as the numbers that they spell. -/
theorem lex_iff_ofBinary_lt {xs ys : List Bool} (h : xs.length = ys.length) :
    List.Lex (· < ·) xs ys ↔ ofBinary xs < ofBinary ys := by
  induction xs generalizing ys with
  | nil =>
    obtain rfl : ys = [] := List.length_eq_zero_iff.1 h.symm
    exact ⟨nofun, fun hlt => absurd hlt (Nat.lt_irrefl _)⟩
  | cons b xs ih =>
    obtain ⟨c, ys, rfl⟩ := List.exists_cons_of_length_eq_add_one h.symm
    have hlength : xs.length = ys.length := Nat.succ.inj h
    have hx := ofBinary_lt xs
    have hy := ofBinary_lt ys
    have hbit : b < c ↔ b = false ∧ c = true := by cases b <;> cases c <;> decide
    rw [List.cons_lex_cons_iff, ih hlength, hbit, ofBinary, ofBinary, hlength]
    rw [hlength] at hx
    -- where the first bits differ their weight is more than all bits after them can make up
    cases b <;> cases c <;> simp <;> omega

theorem lex_binary {r s n : Nat} (hr : r < 2 ^ n) (hs : s < 2 ^ n) :
    List.Lex (· < ·) (binary r n) (binary s n) ↔ r < s := by
  rw [lex_iff_ofBinary_lt (by simp), ofBinary_binary hr, ofBinary_binary hs]

/-! ## Words -/

theorem toNat_toUInt64 {n : Nat} (h : n < 64) : n.toUInt64.toNat = n := by
  have hmod : n.toUInt64.toNat = n % 2 ^ 64 := UInt64.toNat_ofNat'
  omega

/-- There are more words than rows. -/
theorem two_pow_lt {n : Nat} (h : n < 64) : 2 ^ n < 2 ^ 64 :=
  Nat.pow_lt_pow_right Nat.one_lt_two h

theorem toNat_toUInt64_of_lt {n r : Nat} (hn : n < 64) (hr : r < 2 ^ n) : r.toUInt64.toNat = r :=
  UInt64.toNat_ofNat_of_lt (Nat.lt_trans hr (two_pow_lt hn))

/-- The number of rows does not overflow. -/
theorem toNat_one_shiftLeft {n : Nat} (h : n < 64) : (1 <<< n.toUInt64 : UInt64).toNat = 2 ^ n := by
  rw [UInt64.toNat_shiftLeft, toNat_toUInt64 h, Nat.mod_eq_of_lt h, UInt64.toNat_one,
    Nat.one_shiftLeft, Nat.mod_eq_of_lt (two_pow_lt h)]

/-- A bit of a word that is shifted out and masked is that of the number. -/
theorem bit_eq_testBit (r : UInt64) {n : Nat} (h : n < 64) :
    ((r >>> n.toUInt64) &&& 1 == 1) = r.toNat.testBit n := by
  have hbit : ((r >>> n.toUInt64) &&& 1).toNat = (r.toNat.testBit n).toNat := by
    rw [UInt64.toNat_and, UInt64.toNat_shiftRight, toNat_toUInt64 h, Nat.mod_eq_of_lt h,
      UInt64.toNat_one, Nat.and_one_is_mod, Nat.toNat_testBit, Nat.shiftRight_eq_div_pow]
  cases hr : r.toNat.testBit n with
  | false =>
    have hzero : (r >>> n.toUInt64) &&& 1 = 0 := UInt64.toNat_inj.1 (by simpa [hr] using hbit)
    rw [hzero]
    rfl
  | true =>
    have hone : (r >>> n.toUInt64) &&& 1 = 1 := UInt64.toNat_inj.1 (by simpa [hr] using hbit)
    rw [hone]
    rfl

/-- The bits of a word are those of the number. -/
theorem rowBits_eq (r : UInt64) {n : Nat} (h : n ≤ 64) : rowBits r n = binary r.toNat n := by
  induction n with
  | zero => rfl
  | succ n ih => rw [rowBits, binary, ih (by omega), bit_eq_testBit r (by omega)]

theorem getElem?_rowBits (r : UInt64) {n k : Nat} (hn : n ≤ 64) (h : k < n) :
    (rowBits r n)[k]? = some ((r >>> (n - 1 - k).toUInt64) &&& 1 == 1) := by
  rw [rowBits_eq r hn, getElem?_binary _ h, bit_eq_testBit r (by omega)]

end Propositional
