import Monochrome.Filter.Deflate.Basic

/-!
# Reading deflate data

Reading accepts stored blocks and both kinds of coded blocks; what follows the checksum is
ignored.  The text counts as preceded by zeros, so a copy may start before it.  Every other
defect is refused.
-/

namespace Monochrome
namespace Deflate

/-- The order in which the lengths of the code for lengths are given. -/
def lengthOrder : List Nat :=
  [16, 17, 18, 0, 8, 7, 9, 6, 10, 5, 11, 4, 12, 3, 13, 2, 14, 1, 15]

/-- The bits up to the next byte boundary dropped. -/
def align (bits : Bits) : Bits :=
  bits.drop (bits.length % 8)

/-- The given number of bytes and the bits after them. -/
def takeBytes? : Nat → Bits → Option (Bytes × Bits)
  | 0, bits => some ([], bits)
  | count + 1, bits => do
    let (byte, bits) ← Bits.takeLow? 8 bits
    let (bytes, bits) ← takeBytes? count bits
    return (byte.toUInt8 :: bytes, bits)

/-- The number of a symbol with extra bits, and the bits after them. -/
def extended? (table : Array (Nat × Nat)) (symbol : Nat) (bits : Bits) : Option (Nat × Bits) := do
  let (base, width) ← table[symbol]?
  let (extra, bits) ← Bits.takeLow? width bits
  return (base + extra, bits)

/-- The byte at a distance before the end of the text.  Before the text there are zeros. -/
def byteBefore (text : Array UInt8) (distance : Nat) : UInt8 :=
  if distance ≤ text.size then text.getD (text.size - distance) 0 else 0

/-- The text after a copy of bytes at a distance. -/
def copy (distance : Nat) : Nat → Array UInt8 → Array UInt8
  | 0, text => text
  | length + 1, text => copy distance length (text.push (byteBefore text distance))

/-- Reads the symbols of a coded block until its end, and adds what they stand for to the text.
Every symbol takes a bit, so the number of bits bounds the number of symbols. -/
def readCoded (literals distances : PrefixCode) :
    Nat → Array UInt8 → Bits → Option (Array UInt8 × Bits)
  | 0, _, _ => none
  | fuel + 1, text, bits => do
    let (symbol, bits) ← literals.read? bits
    if symbol < 256 then
      readCoded literals distances fuel (text.push symbol.toUInt8) bits
    else if symbol = endSymbol then
      return (text, bits)
    else
      let (length, bits) ← extended? lengthSymbols (symbol - (endSymbol + 1)) bits
      let (symbol, bits) ← distances.read? bits
      let (distance, bits) ← extended? distanceSymbols symbol bits
      readCoded literals distances fuel (copy distance length text) bits

/-- Reads code lengths, newest first, until there are as many as wanted; the symbols above 15
repeat a length or a zero. -/
def readLengths (lengthCode : PrefixCode) (wanted : Nat) : Nat → List Nat → Bits →
    Option (List Nat × Bits)
  | 0, _, _ => none
  | fuel + 1, lengths, bits =>
    if lengths.length = wanted then some (lengths, bits)
    else if wanted < lengths.length then none
    else do
      let (symbol, bits) ← lengthCode.read? bits
      if symbol < 16 then
        readLengths lengthCode wanted fuel (symbol :: lengths) bits
      else if symbol = 16 then
        let last ← lengths.head?
        let (extra, bits) ← Bits.takeLow? 2 bits
        readLengths lengthCode wanted fuel (List.replicate (3 + extra) last ++ lengths) bits
      else if symbol = 17 then
        let (extra, bits) ← Bits.takeLow? 3 bits
        readLengths lengthCode wanted fuel (List.replicate (3 + extra) 0 ++ lengths) bits
      else
        let (extra, bits) ← Bits.takeLow? 7 bits
        readLengths lengthCode wanted fuel (List.replicate (11 + extra) 0 ++ lengths) bits

/-- Reads the given number of three-bit numbers. -/
def readTriples : Nat → Bits → Option (List Nat × Bits)
  | 0, bits => some ([], bits)
  | count + 1, bits => do
    let (value, bits) ← Bits.takeLow? 3 bits
    let (values, bits) ← readTriples count bits
    return (value :: values, bits)

/-- Reads the two codes that a block brings. -/
def readCodes (bits : Bits) : Option ((PrefixCode × PrefixCode) × Bits) := do
  let (literalCount, bits) ← Bits.takeLow? 5 bits
  let (distanceCount, bits) ← Bits.takeLow? 5 bits
  let (lengthCount, bits) ← Bits.takeLow? 4 bits
  let literalCount := literalCount + 257
  let distanceCount := distanceCount + 1
  if 286 < literalCount || 30 < distanceCount then none
  else
    let (triples, bits) ← readTriples (lengthCount + 4) bits
    let given := lengthOrder.zip triples
    let lengthCode ← PrefixCode.ofLengths? <|
      (List.range 19).map fun symbol => (given.lookup symbol).getD 0
    let wanted := literalCount + distanceCount
    let (lengths, bits) ← readLengths lengthCode wanted (wanted + 1) [] bits
    let lengths := lengths.reverse
    let literals ← PrefixCode.ofLengths? (lengths.take literalCount)
    let distances ← PrefixCode.ofLengths? (lengths.drop literalCount)
    return ((literals, distances), bits)

/-- Reads a block after its header, and adds what it stands for to the text. -/
def readBlock (kind : Nat) (text : Array UInt8) (bits : Bits) : Option (Array UInt8 × Bits) :=
  match kind with
  | 0 => do
    let (length, bits) ← Bits.takeLow? 16 (align bits)
    let (complement, bits) ← Bits.takeLow? 16 bits
    if length + complement = 65535 then
      let (bytes, bits) ← takeBytes? length bits
      return (text ++ bytes, bits)
    else none
  | 1 => readCoded fixedLiterals fixedDistances (bits.length + 1) text bits
  | 2 => do
    let ((literals, distances), bits) ← readCodes bits
    readCoded literals distances (bits.length + 1) text bits
  | _ => none

/-- Reads blocks up to the last one.  Every block takes bits. -/
def readBlocks : Nat → Array UInt8 → Bits → Option (Array UInt8 × Bits)
  | 0, _, _ => none
  | fuel + 1, text, bits => do
    let (last, bits) ← Bits.takeLow? 1 bits
    let (kind, bits) ← Bits.takeLow? 2 bits
    let (text, bits) ← readBlock kind text bits
    if last = 1 then return (text, bits)
    else readBlocks fuel text bits

/-- Whether two bytes are a header: method and window size are the usual ones, no dictionary
is needed, and the number of both is a multiple of 31. -/
def isHeader (method flags : UInt8) : Bool :=
  method &&& 15 == 8 && method >>> 4 ≤ 7 && flags &&& 32 == 0 &&
    (256 * method.toNat + flags.toNat) % 31 == 0

/-- The bytes that deflate data stands for. -/
def decode (data : Bytes) : Option Bytes :=
  match data with
  | method :: flags :: blocks => do
    if isHeader method flags then
      let bits := Bits.ofBytesLow blocks
      let (text, bits) ← readBlocks (bits.length + 1) #[] bits
      let (sum, _) ← takeBytes? 4 (align bits)
      let text := text.toList
      if Bytes.bigEndian sum = checksum text then return text else none
    else none
  | _ => none

end Deflate
end Monochrome
