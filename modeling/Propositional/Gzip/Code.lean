import Propositional.Gzip.Reader

/-!
# Canonical codes

A prefix code is given by the lengths of its codewords alone: codewords of one length are
consecutive numbers in the order of their symbols, and shorter ones come first.
-/

namespace Propositional.Gzip

/-- How many codewords have one bit, two bits and so on, and the symbols in the order of
their codewords. -/
structure Code where
  counts : List Nat
  symbols : Array Nat

namespace Code

/-- The code in which the symbol `n` has the `n`th of some lengths. A symbol of length
zero has no codeword. Nothing is said of more bits than the longest codeword has. -/
def ofLengths (lengths : List Nat) : Code :=
  let ofLength n := (lengths.zipIdx.filter fun p => p.1 = n + 1).map (·.2)
  let groups := (List.range (lengths.foldl max 1)).map ofLength
  { counts := groups.map List.length, symbols := groups.flatten.toArray }

/-- How many codewords of the greatest length are left over, or none if there are not
enough of some length. -/
def vacancy (c : Code) : Option Nat :=
  c.counts.foldlM (fun free n => if n ≤ 2 * free then some (2 * free - n) else none) 1

/-- Every sequence of bits starts with a codeword. -/
def isComplete (c : Code) : Bool :=
  c.vacancy = some 0

/-- A code of one symbol cannot be complete, and neither can one of no symbol. Such a code
will do if no codeword has more than one bit. -/
def isUsable (c : Code) : Bool :=
  c.isComplete || c.counts = [0] || c.counts = [1]

/-- Reads on while the bits so far are no codeword. These are `value`; `first` is the
first codeword of the length to come, and `before` symbols have shorter ones. -/
def readFrom (c : Code) : (counts : List Nat) → (value first before : Nat) → Reading Nat
  | [], _, _, _ => throw .badData
  | n :: counts, value, first, before => do
    let value := 2 * value + (← Reading.bit)
    if value < first + n then
      match c.symbols[before + (value - first)]? with
      | some symbol => return symbol
      | none => throw .badData
    else c.readFrom counts value (2 * (first + n)) (before + n)

/-- The symbol of the codeword that comes next. -/
def read (c : Code) : Reading Nat :=
  c.readFrom c.counts 0 0 0

end Code

end Propositional.Gzip
