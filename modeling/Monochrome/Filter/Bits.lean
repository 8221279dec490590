import Monochrome.Bytes

/-!
# Bit strings

Compressed data is a string of bits.  Either the least or the most significant bit of a byte
comes first.
-/

namespace Monochrome

/-- A string of bits. -/
abbrev Bits := List Bool

namespace Bits

/-- The bits of a number, least significant first. -/
def lowFirst : Nat → Nat → Bits
  | 0, _ => []
  | width + 1, value => (value % 2 == 1) :: lowFirst width (value / 2)

/-- The bits of a number, most significant first. -/
def highFirst (width value : Nat) : Bits :=
  (lowFirst width value).reverse

/-- The number that bits spell, least significant first. -/
def valueLow : Bits → Nat
  | [] => 0
  | bit :: rest => bit.toNat + 2 * valueLow rest

/-- The number that bits spell, most significant first. -/
def valueHigh (bits : Bits) : Nat :=
  bits.foldl (fun value bit => 2 * value + bit.toNat) 0

/-- The bits of bytes, the least significant of each first. -/
def ofBytesLow (bytes : Bytes) : Bits :=
  bytes.flatMap fun byte => lowFirst 8 byte.toNat

/-- The bits of bytes, the most significant of each first. -/
def ofBytesHigh (bytes : Bytes) : Bits :=
  bytes.flatMap fun byte => highFirst 8 byte.toNat

/-- The first bits and the rest, if there are as many. -/
def split? (width : Nat) (bits : Bits) : Option (Bits × Bits) :=
  let first := bits.take width
  if first.length = width then some (first, bits.drop width) else none

/-- The number in the first bits, least significant first, and the rest. -/
def takeLow? (width : Nat) (bits : Bits) : Option (Nat × Bits) :=
  (split? width bits).map fun (first, rest) => (valueLow first, rest)

/-- The number in the first bits, most significant first, and the rest. -/
def takeHigh? (width : Nat) (bits : Bits) : Option (Nat × Bits) :=
  (split? width bits).map fun (first, rest) => (valueHigh first, rest)

/-- The bytes of bits, the most significant of each first, padded with zeros. -/
def toBytesHigh (bits : Bits) : Bytes :=
  match bits with
  | [] => []
  | bit :: rest =>
    let first := (bit :: rest).take 8
    (valueHigh (first ++ List.replicate (8 - first.length) false)).toUInt8 ::
      toBytesHigh (rest.drop 7)
termination_by bits.length
decreasing_by
  simp only [List.length_drop, List.length_cons]
  omega

/-- The bytes of bits, the least significant of each first, padded with zeros. -/
def toBytesLow (bits : Bits) : Bytes :=
  match bits with
  | [] => []
  | bit :: rest => (valueLow (bit :: rest.take 7)).toUInt8 :: toBytesLow (rest.drop 7)
termination_by bits.length
decreasing_by
  simp only [List.length_drop, List.length_cons]
  omega

end Bits
end Monochrome
