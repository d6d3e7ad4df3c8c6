/-!
# Checksum

CRC-32, the remainder of the bytes as a polynomial over two elements. The lowest bit of a
byte counts first, so a shift goes to the right.
-/

namespace Propositional.Gzip

/-- A remainder moved on by one bit. -/
def shift (remainder : UInt32) : UInt32 :=
  if remainder &&& 1 = 1 then (remainder >>> 1) ^^^ 0xEDB88320 else remainder >>> 1

/-- A remainder moved on by one byte. -/
def absorb (remainder : UInt32) (byte : UInt8) : UInt32 :=
  Nat.repeat shift 8 (remainder ^^^ byte.toUInt32)

def checksum (bytes : ByteArray) : UInt32 :=
  ~~~ (bytes.foldl absorb 0xFFFFFFFF)

end Propositional.Gzip
