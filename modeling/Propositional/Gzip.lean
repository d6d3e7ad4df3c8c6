import Propositional.Gzip.Checksum
import Propositional.Gzip.Deflate

/-!
# Gzip streams

A stream is a header, compressed data and a trailer with the checksum and the size of what
the data stand for. Whatever follows is not looked at.
-/

namespace Propositional.Gzip

/-- A field that ends with a zero byte, after `room` bytes at most. -/
def textField : (room : Nat) → Reading Unit
  | 0 => do if (← Reading.byte) ≠ 0 then throw .longField
  | room + 1 => do if (← Reading.byte) ≠ 0 then textField room

/-- The greatest length of a name or a comment. -/
def maxField : Nat := 65535

/-- The header: ten bytes, the fourth of which says what else there is. Its bits mean a
checksum of the header (1), a field of given length (2), a name (3) and a comment (4);
bit 0 says nothing about the header, and the other bits must not be set. -/
def header : Reading Unit := do
  let mark ← Reading.bits 16
  let method ← Reading.bits 8
  let flags ← Reading.bits 8
  Reading.skip 6
  if mark ≠ 0x8B1F ∨ method ≠ 8 ∨ 32 ≤ flags then throw .badHeader
  if flags.testBit 2 then Reading.skip (← Reading.bits 16)
  if flags.testBit 3 then textField maxField
  if flags.testBit 4 then textField maxField
  if flags.testBit 1 then
    let r ← get
    let sum := (checksum (r.stream.extract 0 (r.position / 8))).toUInt16
    if (← Reading.bits 16) ≠ sum.toNat then throw .badChecksum

def trailer : Reading Unit := do
  Reading.align
  let sum ← Reading.bits 32
  let size ← Reading.bits 32
  let output := (← get).output
  if sum ≠ (checksum output).toNat ∨ size ≠ output.size.toUInt32.toNat then
    throw .badChecksum

/-- What can be had of a stream, and the fault that comes after it. -/
structure Content where
  bytes : ByteArray
  fault : Option Fault

/-- Reads a stream. Of bad data only that can be had which was handed on in time. -/
def decode (stream : ByteArray) : Content :=
  match (do header; inflate; trailer : Reading Unit).run (.start stream) with
  | .ok _ r => { bytes := r.output, fault := none }
  | .error .badData r => { bytes := r.settled, fault := some .badData }
  | .error fault r => { bytes := r.output, fault := some fault }

end Propositional.Gzip
