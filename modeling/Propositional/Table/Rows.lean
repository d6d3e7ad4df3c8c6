import Propositional.Network

/-!
# Rows

The rows of a truth table, produced one at a time. Rows are numbered by 64-bit words;
row `r` gives the variables the bits of `r`, the first variable the most significant
one, and then evaluates the nodes. The values given stay, also when a node cannot be
evaluated, so the next row starts from what the last one left. With fewer than 64
variables the number of rows is a word, and no operation on row numbers overflows.
-/

namespace Propositional

/-- The last `n` bits of a word, most significant first. -/
def rowBits (r : UInt64) : Nat → List Bool
  | 0 => []
  | n + 1 => ((r >>> n.toUInt64) &&& 1 == 1) :: rowBits r n

/-- The cells of a row: the bits of its number, then the values of the nodes. -/
abbrev Row := List Bool

structure Rows (g : Graph) where
  vars : List g.Variable
  nodes : List g.Id
  values : Valuation g
  position : UInt64
  few : vars.length < 64
  position_le : position ≤ 1 <<< vars.length.toUInt64

namespace Rows

variable {g : Graph}

/-- The number of all rows. -/
def total (rows : Rows g) : UInt64 :=
  1 <<< rows.vars.length.toUInt64

/-- The number of rows still to come. -/
def left (rows : Rows g) : UInt64 :=
  rows.total - rows.position

/-- The written forms of the columns. -/
def header (rows : Rows g) : List String :=
  (rows.vars.map (·.id) ++ rows.nodes).map fun i => (g.formula i).render

/-- The values after row `r` has been assigned. A variable that is listed twice keeps the
later bit. -/
def assign (rows : Rows g) (r : UInt64) : Valuation g :=
  (rows.vars.zip (rowBits r rows.vars.length)).foldl
    (fun v (x, b) => v.set x (some b)) rows.values

/-- The row of the variables' bits and the nodes' values under `v`. -/
def row (rows : Rows g) (r : UInt64) (v : Valuation g) : Except Unassigned Row :=
  (rows.nodes.mapM (g.evaluate v)).map (rowBits r rows.vars.length ++ ·)

theorem succ_le_of_ne {m n : UInt64} (h : m ≤ n) (hn : m ≠ n) : m + 1 ≤ n := by
  have hne : m.toNat ≠ n.toNat := fun h => hn (UInt64.toNat_inj.1 h)
  have hlt := n.toNat_lt
  rw [UInt64.le_iff_toNat_le] at h ⊢
  rw [UInt64.toNat_add, UInt64.toNat_one]
  omega

theorem sub_succ_lt {m n : UInt64} (h : m ≤ n) (hn : m ≠ n) :
    (n - (m + 1)).toNat < (n - m).toNat := by
  have hs := succ_le_of_ne h hn
  have hne : m.toNat ≠ n.toNat := fun h => hn (UInt64.toNat_inj.1 h)
  rw [UInt64.toNat_sub_of_le _ _ h, UInt64.toNat_sub_of_le _ _ hs, UInt64.toNat_add,
    UInt64.toNat_one]
  rw [UInt64.le_iff_toNat_le] at h
  have hlt := n.toNat_lt
  omega

/-- The next row and the rows after it, or none at the end. -/
def next? (rows : Rows g) : Option (Except Unassigned Row × Rows g) :=
  if h : rows.position = rows.total then none
  else
    let values := rows.assign rows.position
    some (rows.row rows.position values,
      { rows with
        values
        position := rows.position + 1
        position_le := succ_le_of_ne rows.position_le h })

theorem left_lt_of_next? {rows rows' : Rows g} {row : Except Unassigned Row}
    (h : rows.next? = some (row, rows')) : rows'.left.toNat < rows.left.toNat := by
  rw [next?] at h
  split at h
  · cases h
  next hne =>
    cases h
    exact sub_succ_lt rows.position_le hne

/-- Takes all rows that are left, in order. -/
def fold (f : β → Except Unassigned Row → β) (b : β) (rows : Rows g) : β × Rows g :=
  match _h : rows.next? with
  | none => (b, rows)
  | some (row, rows') => rows'.fold f (f b row)
termination_by rows.left.toNat
decreasing_by exact left_lt_of_next? _h

/-- The row after `k` more, which are produced and dropped. -/
def nth (rows : Rows g) : Nat → Option (Except Unassigned Row) × Rows g
  | 0 =>
    match rows.next? with
    | none => (none, rows)
    | some (row, rows') => (some row, rows')
  | k + 1 =>
    match rows.next? with
    | none => (none, rows)
    | some (_, rows') => rows'.nth k

/-- The number of rows left, found by producing them. -/
def count (rows : Rows g) : Nat × Rows g :=
  rows.fold (fun n _ => n + 1) 0

def last (rows : Rows g) : Option (Except Unassigned Row) × Rows g :=
  rows.fold (fun _ row => some row) none

/-- The rows left, after those already taken, up to the first that fails. -/
def collectOnto (done : Array Row) (rows : Rows g) : Except Unassigned (Array Row) × Rows g :=
  match _h : rows.next? with
  | none => (.ok done, rows)
  | some (.error e, rows') => (.error e, rows')
  | some (.ok row, rows') => rows'.collectOnto (done.push row)
termination_by rows.left.toNat
decreasing_by exact left_lt_of_next? _h

/-- All rows left, unless one fails. -/
def collect (rows : Rows g) : Except Unassigned (List Row) × Rows g :=
  let (result, rows) := rows.collectOnto #[]
  (result.map Array.toList, rows)

end Rows

end Propositional
