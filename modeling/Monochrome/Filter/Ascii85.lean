import Monochrome.Bytes

/-!
# Base-85 data

Five characters stand for four bytes, the letter `z` for four zeros, and a tilde ends the data.
A last group of `n` bytes is written in `n + 1` characters.
-/

namespace Monochrome
namespace Ascii85

/-- The four bytes of a word, most significant first. -/
def wordBytes (word : UInt32) : Bytes :=
  [(word >>> 24).toUInt8, (word >>> 16).toUInt8, (word >>> 8).toUInt8, word.toUInt8]

/-- One more digit of a word. -/
def push (word : UInt32) (digit : UInt8) : UInt32 :=
  word * 85 + digit.toUInt32

/-- The bytes of an incomplete group of characters: the missing ones count as the highest. -/
def finish (word : UInt32) (count : Nat) : Bytes :=
  if 1 < count then
    (wordBytes ((List.replicate (5 - count) (84 : UInt8)).foldl push word)).take (count - 1)
  else []

/-- Decodes with the characters of the current group read so far. -/
def decodeFrom (word : UInt32) (count : Nat) : Bytes → Bytes
  | [] => finish word count
  | byte :: rest =>
    if byte = 122 && count = 0 then 0 :: 0 :: 0 :: 0 :: decodeFrom word count rest
    else if byte = 126 then finish word count
    else if 33 ≤ byte && byte ≤ 117 then
      if count = 4 then wordBytes (push word (byte - 33)) ++ decodeFrom 0 0 rest
      else decodeFrom (push word (byte - 33)) (count + 1) rest
    else decodeFrom word count rest

/-- The bytes that base-85 text stands for. -/
def decode (text : Bytes) : Bytes :=
  decodeFrom 0 0 text

/-- The given number of base-85 digits of a word, most significant first, as characters. -/
def digits : Nat → Nat → Bytes
  | 0, _ => []
  | count + 1, word => digits count (word / 85) ++ [(word % 85).toUInt8 + 33]

/-- The characters of a group of one to four bytes. -/
def encodeGroup (group : Bytes) : Bytes :=
  let word := Bytes.bigEndian (group ++ List.replicate (4 - group.length) 0)
  if word = 0 && group.length = 4 then [122]
  else (digits 5 word).take (group.length + 1)

/-- The base-85 text of bytes. -/
def encode (bytes : Bytes) : Bytes :=
  (Bytes.chunks 4 bytes).flatMap encodeGroup ++ [126, 62]

end Ascii85
end Monochrome
