/-!
# Byte strings

Names, content streams and image data are byte strings.  They are kept as lists, so that
reading them is a recursion on their structure.  The file also holds the character classes
of document syntax: blanks, which separate tokens, delimiters, which end them, and regular
bytes, which make them up.
-/

namespace Monochrome

-- Powers and sums are read the same way whatever else is imported.
attribute [instance (1100), default_instance 10001] instPowNat
attribute [instance (1100)] Zero.ofOfNat0

/-- A string of bytes. -/
abbrev Bytes := List UInt8

namespace Bytes

/-- The byte string of a text of ASCII characters. -/
def ascii (text : String) : Bytes :=
  text.toList.map fun character => character.toNat.toUInt8

/-- The six blanks: NUL, tab, line feed, form feed, carriage return and space. -/
def isBlank (byte : UInt8) : Bool :=
  byte == 0 || byte == 9 || byte == 10 || byte == 12 || byte == 13 || byte == 32

/-- The ten bytes that end a token and begin something else. -/
def isDelimiter (byte : UInt8) : Bool :=
  (ascii "()<>[]\x7b\x7d/%").contains byte

/-- A byte that can stand inside a token. -/
def isRegular (byte : UInt8) : Bool :=
  !isBlank byte && !isDelimiter byte

/-- A decimal digit. -/
def isDigit (byte : UInt8) : Bool :=
  48 ≤ byte && byte ≤ 57

/-- The value of a hexadecimal digit of either case. -/
def hexValue? (byte : UInt8) : Option UInt8 :=
  if 48 ≤ byte && byte ≤ 57 then some (byte - 48)
  else if 97 ≤ byte && byte ≤ 102 then some (byte - 87)
  else if 65 ≤ byte && byte ≤ 70 then some (byte - 55)
  else none

/-- The upper-case hexadecimal digit of a value below sixteen. -/
def hexDigit (value : UInt8) : UInt8 :=
  if value < 10 then value + 48 else value + 55

/-- The two upper-case hexadecimal digits of a byte. -/
def hexPair (byte : UInt8) : Bytes :=
  [hexDigit (byte >>> 4), hexDigit (byte &&& 15)]

/-- The decimal digits of a natural number. -/
def ofNat (number : Nat) : Bytes :=
  ascii (toString number)

/-- The decimal text of an integer, with a minus sign if it is negative. -/
def ofInt (number : Int) : Bytes :=
  if number < 0 then 45 :: ofNat number.natAbs else ofNat number.natAbs

/-- The number that big-endian bytes spell. -/
def bigEndian (bytes : Bytes) : Nat :=
  bytes.foldl (fun value byte => 256 * value + byte.toNat) 0

/-- The bytes cut into pieces of the given length, the last one possibly shorter. -/
def chunks (size : Nat) (bytes : Bytes) : List Bytes :=
  match bytes with
  | [] => []
  | byte :: rest =>
    (byte :: rest.take (size - 1)) :: chunks size (rest.drop (size - 1))
termination_by bytes.length
decreasing_by
  simp only [List.length_drop, List.length_cons]
  omega

end Bytes

end Monochrome
