import Propositional.Gzip.Code

/-!
# Compressed data

The data of a stream are blocks. A block holds bytes as they are, or symbols: a byte, the
end of the block, or a length, which a distance follows and which stands for bytes that
have been put out before. The codes of the symbols are fixed or come with the block.
-/

namespace Propositional.Gzip

/-- The codes of a block: for bytes, the end and lengths, and for distances. -/
structure Codes where
  literals : Code
  distances : Code

namespace Deflate

-- ---------------------------------------------------------------------------
-- Symbols
-- ---------------------------------------------------------------------------

def endOfBlock : Nat := 256

/-- The least length of each length symbol, and how many bits are to be added to it. -/
def lengthSteps : Array (Nat × Nat) :=
  #[(3, 0), (4, 0), (5, 0), (6, 0), (7, 0), (8, 0), (9, 0), (10, 0), (11, 1), (13, 1),
    (15, 1), (17, 1), (19, 2), (23, 2), (27, 2), (31, 2), (35, 3), (43, 3), (51, 3), (59, 3),
    (67, 4), (83, 4), (99, 4), (115, 4), (131, 5), (163, 5), (195, 5), (227, 5), (258, 0)]

/-- The least distance of each distance symbol, and how many bits are to be added to it. -/
def distanceSteps : Array (Nat × Nat) :=
  #[(1, 0), (2, 0), (3, 0), (4, 0), (5, 1), (7, 1), (9, 2), (13, 2), (17, 3), (25, 3),
    (33, 4), (49, 4), (65, 5), (97, 5), (129, 6), (193, 6), (257, 7), (385, 7), (513, 8),
    (769, 8), (1025, 9), (1537, 9), (2049, 10), (3073, 10), (4097, 11), (6145, 11),
    (8193, 12), (12289, 12), (16385, 13), (24577, 13)]

/-- The amount that a symbol stands for, with the bits that it takes. -/
def amount (steps : Array (Nat × Nat)) (symbol : Nat) : Reading Nat :=
  match steps[symbol]? with
  | some (least, extra) => return least + (← Reading.bits extra)
  | none => throw .badData

/-- Reads symbols to the end of the block. Each takes a bit at least, so no more symbols
than bits can follow. -/
def symbols (codes : Codes) : (bitsLeft : Nat) → Reading Unit
  | 0 => throw .truncated
  | bitsLeft + 1 => do
    let symbol ← codes.literals.read
    if symbol < endOfBlock then
      Reading.emit symbol.toUInt8
      symbols codes bitsLeft
    else if symbol = endOfBlock then return
    else
      let length ← amount lengthSteps (symbol - endOfBlock - 1)
      let distance ← amount distanceSteps (← codes.distances.read)
      Reading.repeatFrom distance length
      symbols codes bitsLeft

def compressed (codes : Codes) : Reading Unit := do
  symbols codes (← get).bitsLeft

-- ---------------------------------------------------------------------------
-- Codes
-- ---------------------------------------------------------------------------

def fixedCodes : Codes where
  literals := .ofLengths
    (.replicate 144 8 ++ .replicate 112 9 ++ .replicate 24 7 ++ .replicate 8 8)
  distances := .ofLengths (.replicate 32 5)

/-- The order in which the lengths of the codewords for lengths are given. -/
def lengthOrder : List Nat :=
  [16, 17, 18, 0, 8, 7, 9, 6, 10, 5, 11, 4, 12, 3, 13, 2, 14, 1, 15]

/-- Reads `n` lengths of three bits. -/
def shortLengths : Nat → Reading (List Nat)
  | 0 => return []
  | n + 1 => do
    let length ← Reading.bits 3
    return length :: (← shortLengths n)

/-- The code in which the lengths of the other codes are written. -/
def lengthCode (count : Nat) : Reading Code := do
  let given := lengthOrder.zip (← shortLengths count)
  let code := Code.ofLengths ((List.range 19).map fun symbol => (given.lookup symbol).getD 0)
  if code.isComplete then return code else throw .badData

/-- Goes on to `total` lengths. Three symbols repeat the length before or zero; the last
repetition must not go too far. -/
def lengths (code : Code) (total : Nat) (done : Array Nat) : Reading (List Nat) :=
  if done.size < total then do
    match ← code.read with
    | 16 =>
      match done.back? with
      | some length =>
        let more ← Reading.bits 2
        lengths code total (done ++ Array.replicate (more + 3) length)
      | none => throw .badData
    | 17 =>
      let more ← Reading.bits 3
      lengths code total (done ++ Array.replicate (more + 3) 0)
    | 18 =>
      let more ← Reading.bits 7
      lengths code total (done ++ Array.replicate (more + 11) 0)
    | length => lengths code total (done.push length)
  else if done.size = total then return done.toList
  else throw .badData
termination_by total - done.size
decreasing_by all_goals simp; omega

/-- The codes at the head of a block. -/
def codes : Reading Codes := do
  let literals := 257 + (← Reading.bits 5)
  let distances := 1 + (← Reading.bits 5)
  let count := 4 + (← Reading.bits 4)
  if 286 < literals ∨ 30 < distances then throw .badData
  let all ← lengths (← lengthCode count) (literals + distances) #[]
  let codes : Codes := ⟨.ofLengths (all.take literals), .ofLengths (all.drop literals)⟩
  if codes.literals.isUsable && codes.distances.isUsable then return codes else throw .badData

-- ---------------------------------------------------------------------------
-- Blocks
-- ---------------------------------------------------------------------------

/-- A block of bytes as they are. Their number is given twice, the second time with every
bit turned over. -/
def stored : Reading Unit := do
  Reading.align
  let size ← Reading.bits 16
  if (← Reading.bits 16) + size = 65535 then Reading.transfer size else throw .badData

/-- Reads blocks to the last one. Each takes a bit at least. -/
def blocks : (bitsLeft : Nat) → Reading Unit
  | 0 => throw .truncated
  | bitsLeft + 1 => do
    let last ← Reading.bit
    match ← Reading.bits 2 with
    | 0 => stored
    | 1 => compressed fixedCodes
    | 2 => compressed (← codes)
    | _ => throw .badData
    if last = 1 then return else blocks bitsLeft

end Deflate

/-- Within the data, the end of the stream means that they are incomplete. -/
def Fault.withinData : Fault → Fault
  | truncated => incompleteData
  | fault => fault

/-- Puts out what compressed data stand for. -/
def inflate : Reading Unit :=
  EStateM.adaptExcept Fault.withinData do
    Deflate.blocks (← get).bitsLeft

end Propositional.Gzip
