import Monochrome.Bytes

/-!
# Hexadecimal data

Two digits stand for a byte, and a closing angle bracket ends the data.  Whatever is no digit
is skipped; a digit left over at the end is the high half of a byte.
-/

namespace Monochrome
namespace AsciiHex

/-- The byte of a digit left over at the end. -/
def leftover : Option UInt8 → Bytes
  | none => []
  | some high => [high <<< 4]

/-- Decodes with the high half of the current byte read, if any. -/
def decodeFrom (half : Option UInt8) : Bytes → Bytes
  | [] => leftover half
  | byte :: rest =>
    match Bytes.hexValue? byte, half with
    | some digit, some high => ((high <<< 4) ||| digit) :: decodeFrom none rest
    | some digit, none => decodeFrom (some digit) rest
    | none, half => if byte = 62 then leftover half else decodeFrom half rest

/-- The bytes that hexadecimal text stands for. -/
def decode (text : Bytes) : Bytes :=
  decodeFrom none text

/-- The hexadecimal text of bytes. -/
def encode (bytes : Bytes) : Bytes :=
  bytes.flatMap Bytes.hexPair ++ [62]

end AsciiHex
end Monochrome
