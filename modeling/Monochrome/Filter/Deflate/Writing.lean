import Monochrome.Filter.Deflate.Basic

/-!
# Writing deflate data

A short text becomes one block of the fixed codes, in which repeated parts are copies.  A longer
text is stored as it is, and so is one of medium length that the fixed codes do not make
shorter.
-/

namespace Monochrome
namespace Deflate

/-! ## Literal bytes and copies -/

/-- A number of bytes that repeat those a distance back. -/
structure Copy where
  length : Nat
  distance : Nat

/-- A part of a text: a byte or a copy. -/
inductive Part
  | literal (byte : UInt8)
  | copy (copied : Copy)

/-- How many bytes two texts have in common at their start. -/
def commonLength : Bytes → Bytes → Nat
  | first :: firsts, second :: seconds =>
    if first == second then commonLength firsts seconds + 1 else 0
  | _, _ => 0

/-- The longest copy, and of those the nearest, with which a text goes on; the past is given
newest byte first.  No copy starts at the first byte, and only copies above a length count. -/
def longestCopy? (past next : Bytes) (above : Nat) : Option Copy :=
  let lengths := (List.range (past.length - 1)).map fun index =>
    ⟨commonLength ((past.take (index + 1)).reverse ++ next) next, index + 1⟩
  lengths.foldl
    (fun best copied =>
      if (best.map Copy.length).getD above < copied.length then some copied else best)
    none

/-- The parts of a text after its past, which is given newest byte first.  A copy is held back
with the byte it starts at, and dropped for a longer one that starts at the next byte. -/
def parts (past : Bytes) (held : Option (UInt8 × Copy)) (next : Bytes) : List Part :=
  match next with
  | [] => (held.map fun (byte, _) => Part.literal byte).toList
  | byte :: rest =>
    match held, longestCopy? past next ((held.map fun (_, copied) => copied.length).getD 2) with
    | none, none => .literal byte :: parts (byte :: past) none rest
    | none, some copied => parts (byte :: past) (some (byte, copied)) rest
    | some (first, _), some copied =>
      .literal first :: parts (byte :: past) (some (byte, copied)) rest
    | some (_, copied), none =>
      .copy copied ::
        parts ((rest.take (copied.length - 2)).reverse ++ byte :: past) none
          (rest.drop (copied.length - 2))
termination_by next.length
decreasing_by
  all_goals simp only [List.length_cons, List.length_drop]
  all_goals omega

/-! ## Coded blocks -/

/-- The last symbol of a table that starts at most at a value, and what is left of the value in
the symbol's extra bits. -/
def symbolOf (table : Array (Nat × Nat)) (value : Nat) : Nat × Bits :=
  let started := table.toList.takeWhile fun (base, _) => base ≤ value
  let (base, width) := started.getLastD (0, 0)
  (started.length - 1, Bits.lowFirst width (value - base))

/-- The bits of a part in a block of the fixed codes. -/
def Part.bits : Part → Bits
  | literal byte => fixedLiterals.bits byte.toNat
  | copy copied =>
    let (length, lengthBits) := symbolOf lengthSymbols copied.length
    let (distance, distanceBits) := symbolOf distanceSymbols copied.distance
    fixedLiterals.bits (endSymbol + 1 + length) ++ lengthBits ++
      fixedDistances.bits distance ++ distanceBits

/-- A text as its only block, which is of the fixed codes. -/
def codedBlock (text : Bytes) : Bits :=
  Bits.lowFirst 1 1 ++ Bits.lowFirst 2 1 ++ (parts [] none text).flatMap Part.bits ++
    fixedLiterals.bits endSymbol

/-! ## Stored blocks -/

/-- A number of two bytes, the low one first. -/
def littleEndian (value : Nat) : Bytes :=
  [value.toUInt8, (value / 256).toUInt8]

/-- A stored block. -/
def storedBlock (last : Bool) (bytes : Bytes) : Bytes :=
  last.toUInt8 ::
    (littleEndian bytes.length ++ littleEndian (65535 - bytes.length) ++ bytes)

/-- Stored blocks of the given pieces. -/
def storedBlocks : List Bytes → Bytes
  | [] => storedBlock true []
  | [piece] => storedBlock true piece
  | piece :: pieces => storedBlock false piece ++ storedBlocks pieces

/-! ## The whole data -/

/-- The length from which a text is stored where its coded block is not shorter. -/
def storableLength : Nat := 33

/-- The length from which every text is stored. -/
def storedLength : Nat := 48

/-- A text as a coded block, unless it is to be stored. -/
def coded? (text : Bytes) : Option Bytes :=
  if text.length < storedLength then
    let block := codedBlock text
    if text.length < storableLength || block.length / 8 + 1 < text.length then
      some (Bits.toBytesLow block)
    else none
  else none

/-- The blocks of a text. -/
def blocks (text : Bytes) : Bytes :=
  (coded? text).getD (storedBlocks (Bytes.chunks 65535 text))

/-- Deflate data of a text. -/
def encode (text : Bytes) : Bytes :=
  let sum := checksum text
  [120, 156] ++ blocks text ++
    [(sum / 16777216).toUInt8, (sum / 65536).toUInt8, (sum / 256).toUInt8, sum.toUInt8]

end Deflate
end Monochrome
