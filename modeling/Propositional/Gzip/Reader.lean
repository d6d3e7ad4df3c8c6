/-!
# Reading a stream

A gzip stream is read bit by bit, every byte from its lowest bit, and what it holds is put
out on the way. A fault ends the reading; what was put out before it stays.

Output is handed on when a window of it is full and more is to come, and when a piece of
the stream is used up. Data that turn out to be bad spoil what was not handed on.
-/

namespace Propositional.Gzip

/-- What can be wrong with a stream. -/
inductive Fault where
  | truncated
  | badHeader
  | longField
  | incompleteData
  | badData
  | badChecksum
deriving DecidableEq

def Fault.message : Fault → String
  | truncated => "unexpected end of file"
  | badHeader => "invalid gzip header"
  | longField => "gzip header field too long"
  | incompleteData => "incomplete deflate stream"
  | badData => "corrupt deflate stream"
  | badChecksum => "corrupt gzip stream does not have a matching checksum"

/-- A stream, the number of its bits that have been read, what was put out, and how many
bytes of that were handed on. -/
structure Reader where
  stream : ByteArray
  position : Nat
  output : ByteArray
  handed : Nat

abbrev Reading := EStateM Fault Reader

namespace Reader

/-- Before the first bit. -/
def start (stream : ByteArray) : Reader :=
  { stream, position := 0, output := .empty, handed := 0 }

def bitsLeft (r : Reader) : Nat :=
  8 * r.stream.size - r.position

/-- The byte that was put out `distance` bytes ago; before the first one all are zero. -/
def earlier (r : Reader) (distance : Nat) : UInt8 :=
  if distance ≤ r.output.size then r.output[r.output.size - distance]?.getD 0 else 0

-- ---------------------------------------------------------------------------
-- Handing on
-- ---------------------------------------------------------------------------

/-- The size of a window, which is how far a copy can reach back. -/
def window : Nat := 32768

/-- The size of the pieces in which a stream comes. -/
def piece : Nat := 32768

/-- The least number of bytes for which a full window is handed on alone. -/
def portion : Nat := 8192

def handOn (r : Reader) : Reader :=
  { r with handed := r.output.size }

/-- Before a bit is read. -/
def beforeBit (r : Reader) : Reader :=
  if r.position % (8 * piece) = 0 then r.handOn else r

/-- Before a byte is put out. -/
def beforeByte (r : Reader) : Reader :=
  if r.output.size % window = 0 ∧ portion ≤ r.output.size - r.handed then r.handOn else r

/-- What can be had of the output if the data are bad. -/
def settled (r : Reader) : ByteArray :=
  r.output.extract 0 r.handed

end Reader

namespace Reading

-- ---------------------------------------------------------------------------
-- Input
-- ---------------------------------------------------------------------------

def bit : Reading Nat := do
  let r := (← get).beforeBit
  match r.stream[r.position / 8]? with
  | some byte =>
    set { r with position := r.position + 1 }
    return (byte.toNat >>> (r.position % 8)) % 2
  | none => throw .truncated

/-- A number of so many bits, the lowest bit first. -/
def bits : Nat → Reading Nat
  | 0 => return 0
  | n + 1 => do
    let low ← bit
    return low + 2 * (← bits n)

def byte : Reading UInt8 :=
  return (← bits 8).toUInt8

/-- Passes over so many bytes. -/
def skip : Nat → Reading Unit
  | 0 => return
  | n + 1 => do
    discard byte
    skip n

/-- Passes over what is left of a byte that has been begun. -/
def align : Reading Unit :=
  modify fun r => { r with position := 8 * ((r.position + 7) / 8) }

-- ---------------------------------------------------------------------------
-- Output
-- ---------------------------------------------------------------------------

def emit (byte : UInt8) : Reading Unit :=
  modify fun r =>
    let r := r.beforeByte
    { r with output := r.output.push byte }

/-- Puts out the next `n` bytes as they are. -/
def transfer : Nat → Reading Unit
  | 0 => return
  | n + 1 => do
    emit (← byte)
    transfer n

/-- Puts out `n` bytes again, from `distance` bytes ago. These may be bytes of the copy. -/
def repeatFrom (distance : Nat) : Nat → Reading Unit
  | 0 => return
  | n + 1 => do
    emit ((← get).earlier distance)
    repeatFrom distance n

end Reading

end Propositional.Gzip
