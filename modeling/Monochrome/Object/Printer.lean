import Monochrome.Object.Basic
import Monochrome.Decimal.Numeral
import Monochrome.Scalar

/-!
# Writing objects

The notation in which objects are written: names with their special bytes as hexadecimal digits,
literal strings with as few backslashes as keep the parentheses balanced, real numbers without
exponent in the fewest digits.
-/

namespace Monochrome
namespace Object

/-- Whether a byte stands for itself in a name. -/
def isPlainInName (byte : UInt8) : Bool :=
  33 ≤ byte && byte ≤ 126 && !Bytes.isDelimiter byte && byte != 35

/-- A name as it is written. -/
def printName (bytes : Bytes) : Bytes :=
  47 :: bytes.flatMap fun byte => if isPlainInName byte then [byte] else 35 :: Bytes.hexPair byte

/-- For each byte whether it is a parenthesis without partner.  The first argument is the number
of parentheses open before; the result tells also how many of the closing ones after the
bytes are missing. -/
def loneParentheses : Nat → Bytes → List Bool × Nat
  | depth, [] => ([], depth)
  | depth, byte :: rest =>
    if byte = 40 then
      let (marks, missing) := loneParentheses (depth + 1) rest
      if depth < missing then (true :: marks, missing - 1) else (false :: marks, missing)
    else if byte = 41 then
      if depth = 0 then
        let (marks, missing) := loneParentheses 0 rest
        (true :: marks, missing)
      else
        let (marks, missing) := loneParentheses (depth - 1) rest
        (false :: marks, missing)
    else
      let (marks, missing) := loneParentheses depth rest
      (false :: marks, missing)

/-- A byte of a literal string as it is written, given whether it is a lone parenthesis. -/
def printLiteralByte (byte : UInt8) (lone : Bool) : Bytes :=
  if byte = 13 then [92, 114]
  else if byte = 92 || lone then [92, byte]
  else [byte]

/-- A string as it is written. -/
def printString (bytes : Bytes) : StringNotation → Bytes
  | .literal =>
    let written := List.zipWith printLiteralByte bytes (loneParentheses 0 bytes).1
    40 :: written.flatten ++ [41]
  | .hexadecimal => 60 :: bytes.flatMap Bytes.hexPair ++ [62]

/-- A real number as it is written. -/
def printReal (value : Float32) : Bytes :=
  (Numeral.write .single (Float32Scalar.read value)).map fun character => character.toNat.toUInt8

/-- A reference as it is written. -/
def printReference (target : ObjectId) : Bytes :=
  Bytes.ofNat target.number ++ 32 :: Bytes.ofNat target.generation ++ [32, 82]

/-- Whether an object has to be set off from a word before it. -/
def needsGap : Object → Bool
  | null | boolean _ | integer _ | real _ | reference _ => true
  | _ => false

mutual

/-- An object as it is written. -/
def print : Object → Bytes
  | null => Bytes.ascii "null"
  | boolean true => Bytes.ascii "true"
  | boolean false => Bytes.ascii "false"
  | integer value => Bytes.ofInt value.toInt
  | real value => printReal value
  | name bytes => printName bytes
  | string bytes written => printString bytes written
  | array items => 91 :: printItems true items ++ [93]
  | dictionary ⟨entries⟩ => 60 :: 60 :: printEntries entries ++ [62, 62]
  | stream ⟨entries⟩ data =>
    60 :: 60 :: printEntries entries ++ [62, 62] ++ Bytes.ascii "stream\n" ++ data ++
      Bytes.ascii "\nendstream"
  | reference target => printReference target

/-- The items of an array as they are written, given whether the next is the first one. -/
def printItems (first : Bool) : List Object → Bytes
  | [] => []
  | item :: rest =>
    (if !first && item.needsGap then [32] else []) ++ item.print ++ printItems false rest

/-- The entries of a dictionary as they are written. -/
def printEntries : List (Bytes × Object) → Bytes
  | [] => []
  | (key, value) :: rest =>
    printName key ++ (if value.needsGap then [32] else []) ++ value.print ++ printEntries rest

end

end Object
end Monochrome
