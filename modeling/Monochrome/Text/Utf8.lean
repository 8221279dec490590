import Monochrome.Bytes

/-!
# Text in bytes

Names and calculator programs are byte strings that are read as UTF-8.  A part that is no
UTF-8 is read as one replacement character: the longest beginning of a well-formed sequence
that stands there, or else a single byte.  Writing a text gives its UTF-8 bytes.
-/

namespace Monochrome
namespace Text

/-- The character that stands for a part that is no UTF-8. -/
def replacement : Char := '\uFFFD'

/-- A byte that continues a sequence. -/
def isContinuation (byte : UInt8) : Bool :=
  0x80 ≤ byte && byte ≤ 0xBF

/-- The bytes that can follow the first byte of a sequence.  The bounds exclude sequences
that are longer than needed, surrogates, and values above the last code point. -/
def isSecond (first second : UInt8) : Bool :=
  if first == 0xE0 then 0xA0 ≤ second && second ≤ 0xBF
  else if first == 0xED then 0x80 ≤ second && second ≤ 0x9F
  else if first == 0xF0 then 0x90 ≤ second && second ≤ 0xBF
  else if first == 0xF4 then 0x80 ≤ second && second ≤ 0x8F
  else isContinuation second

/-- The six payload bits of a continuation byte below the bits read before it. -/
def extend (bits : Nat) (byte : UInt8) : Nat :=
  64 * bits + byte.toNat % 64

/-- The characters of a byte string. -/
def decode : Bytes → List Char
  | [] => []
  | first :: rest =>
    if first < 0x80 then
      Char.ofNat first.toNat :: decode rest
    else if 0xC2 ≤ first && first ≤ 0xDF then
      match rest with
      | second :: rest =>
        if isContinuation second then
          Char.ofNat (extend (first.toNat % 32) second) :: decode rest
        else
          replacement :: decode (second :: rest)
      | [] => [replacement]
    else if 0xE0 ≤ first && first ≤ 0xEF then
      match rest with
      | second :: rest =>
        if isSecond first second then
          match rest with
          | third :: rest =>
            if isContinuation third then
              Char.ofNat (extend (extend (first.toNat % 16) second) third) :: decode rest
            else
              replacement :: decode (third :: rest)
          | [] => [replacement]
        else
          replacement :: decode (second :: rest)
      | [] => [replacement]
    else if 0xF0 ≤ first && first ≤ 0xF4 then
      match rest with
      | second :: rest =>
        if isSecond first second then
          match rest with
          | third :: rest =>
            if isContinuation third then
              match rest with
              | fourth :: rest =>
                if isContinuation fourth then
                  Char.ofNat (extend (extend (extend (first.toNat % 8) second) third) fourth) ::
                    decode rest
                else
                  replacement :: decode (fourth :: rest)
              | [] => [replacement]
            else
              replacement :: decode (third :: rest)
          | [] => [replacement]
        else
          replacement :: decode (second :: rest)
      | [] => [replacement]
    else
      replacement :: decode rest

/-- The text of a byte string. -/
def ofBytes (bytes : Bytes) : String :=
  String.ofList (decode bytes)

/-- The bytes of a text. -/
def toBytes (text : String) : Bytes :=
  text.toList.flatMap String.utf8EncodeChar

end Text
end Monochrome
