import Monochrome.Filter.Bits

/-!
# Canonical prefix codes

A prefix code is given by the length of the code of each symbol.  Codes of one length are
consecutive numbers in the order of their symbols, and follow the shorter codes.
-/

namespace Monochrome

/-- The number of codes of each length from one to fifteen, and the symbols in the order of
their codes. -/
structure PrefixCode where
  counts : List Nat
  symbols : Array Nat

namespace PrefixCode

/-- The greatest length of a code. -/
def maxLength : Nat := 15

/-- The symbols whose codes have the given length, in ascending order. -/
def symbolsOfLength (lengths : List Nat) (length : Nat) : List Nat :=
  (lengths.zipIdx.filter fun (other, _) => other = length).map Prod.snd

/-- The part of all bit strings of maximal length that start with a code, as a number of such
strings. -/
def coverage (counts : List Nat) : Nat :=
  counts.foldl (fun total count => (total + count) * 2) 0

/-- The code with the given lengths, zero standing for symbols that do not occur. -/
def ofLengths (lengths : List Nat) : PrefixCode :=
  let groups := (List.range maxLength).map fun index => symbolsOfLength lengths (index + 1)
  ⟨groups.map List.length, groups.flatten.toArray⟩

/-- The code with the given lengths, which must be used up unless no symbol occurs, or only one
with a code of a single bit. -/
def ofLengths? (lengths : List Nat) : Option PrefixCode :=
  let made := ofLengths lengths
  if coverage made.counts = 2 ^ (maxLength + 1) || lengths.sum ≤ 1 then some made else none

/-- Reads bits until they are a code.  The arguments are the first code of the current length
and the position of its symbol, and the bits read so far as a number. -/
def readFrom (symbols : Array Nat) : List Nat → Nat → Nat → Nat → Bits → Option (Nat × Bits)
  | [], _, _, _, _ => none
  | _, _, _, _, [] => none
  | count :: counts, first, position, code, bit :: rest =>
    let code := 2 * code + bit.toNat
    if code < first + count then
      (symbols[position + (code - first)]?).map fun symbol => (symbol, rest)
    else
      readFrom symbols counts (2 * (first + count)) (position + count) code rest

/-- The symbol whose code comes first, and the bits after it. -/
def read? (prefixCode : PrefixCode) (bits : Bits) : Option (Nat × Bits) :=
  readFrom prefixCode.symbols prefixCode.counts 0 0 0 bits

/-- The code of the symbol at a position.  The arguments are the width and the first code of the
current length. -/
def bitsFrom : List Nat → Nat → Nat → Nat → Bits
  | [], _, _, _ => []
  | count :: counts, width, first, position =>
    if position < count then Bits.highFirst width (first + position)
    else bitsFrom counts (width + 1) (2 * (first + count)) (position - count)

/-- The code of a symbol that occurs. -/
def bits (prefixCode : PrefixCode) (symbol : Nat) : Bits :=
  match prefixCode.symbols.idxOf? symbol with
  | some position => bitsFrom prefixCode.counts 1 0 position
  | none => []

end PrefixCode
end Monochrome
