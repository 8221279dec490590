import Monochrome.Content.Operation
import Monochrome.Object.Grammar
import Monochrome.Object.Printer

/-!
# The notation of operations

Operations are read as long as they can be; the first one that cannot ends the list without
complaint.  Only what starts like an inline image must be one.  Inline images have been cut out
before, so that is seldom so: the header of one may hold another whose data is not filtered and
follows the word `ID` at once.
-/

namespace Monochrome
namespace Parser

/-- The blanks between operands. -/
def isOperandGap (byte : UInt8) : Bool :=
  byte == 32 || byte == 9 || byte == 13 || byte == 10

/-- The bytes after the blanks between operands. -/
def skipOperandGap (bytes : Bytes) : Bytes :=
  bytes.dropWhile isOperandGap

/-- A byte of an operator. -/
def isOperatorByte (byte : UInt8) : Bool :=
  (65 ≤ byte && byte ≤ 90) || (97 ≤ byte && byte ≤ 122) || byte == 42 || byte == 39 || byte == 34

/-- The bytes after comments; no blanks are skipped between them. -/
def skipComments : Nat → Bytes → Bytes
  | 0, bytes => bytes
  | fuel + 1, bytes =>
    match comment bytes with
    | some (_, rest) => skipComments fuel rest
    | none => bytes

/-- Operands followed by an operator, of a text of at most the given length. -/
def operation (length : Nat) : Parser Operation := fun bytes =>
  let (operands, bytes) := many skipOperandGap (operand length) length bytes
  let (keyword, rest) := bytes.span isOperatorByte
  if keyword.isEmpty then none
  else some (⟨Text.ofBytes keyword, operands⟩, skipOperandGap rest)

/-- The natural number under the shorter of two keys, or else under the longer. -/
def headerNumber? (header : Dictionary) (short full : String) : Option Nat :=
  match (header.get? short).or (header.get? full) with
  | some (.integer value) => if 0 ≤ value then some value.toInt.toNat else none
  | _ => none

/-- The color spaces of nested inline images, and the number of samples that a pixel has in
each. -/
def plainSpaces : List (Bytes × Nat) :=
  [("Gray", 1), ("RGB", 3), ("RGBA", 4), ("CMYK", 4)].flatMap fun (name, samples) =>
    [(Bytes.ascii name, samples), (Bytes.ascii ("Device" ++ name), samples)]

/-- The number of samples that a pixel of a nested inline image has: one in a mask, whatever its
color space. -/
def plainSamples? (header : Dictionary) : Option Nat :=
  if Object.isTrue ((header.get? "IM").or (header.get? "ImageMask")) then some 1
  else
    match (header.get? "CS").or (header.get? "ColorSpace") with
    | some (.name space) => plainSpaces.lookup space
    | _ => none

/-- The length of the data of a nested inline image. -/
def plainLength? (header : Dictionary) : Option Nat :=
  if ((header.get? "F").or (header.get? "Filter")).isSome then none
  else do
    let width ← headerNumber? header "W" "Width"
    let height ← headerNumber? header "H" "Height"
    let bits ← headerNumber? header "BPC" "BitsPerComponent"
    let samples ← plainSamples? header
    return (width * samples * bits + 7) / 8 * height

/-- What follows the word `BI` in an inline image, as an operation; its text has at most the
given length. -/
def inlineImage (length : Nat) : Parser Operation := fun bytes => do
  let (header, bytes) := entries length (nested length) (skipOperandGap bytes)
  let (_, bytes) ← exactly (Bytes.ascii "ID") bytes
  let length ← plainLength? header
  if bytes.length < length then none
  else
    let (_, rest) ← exactly (Bytes.ascii "EI") (skipOperandGap (bytes.drop length))
    let image := Stream.ofData header (bytes.take length)
    return (⟨"BI", [image.toObject]⟩, skipOperandGap rest)

/-- The operations of content of at most the given length, for every operation takes bytes.
Nothing is read from content in which an operation starts like an inline image but is none. -/
def operations : Nat → Bytes → Option (List Operation)
  | 0, _ => some []
  | length + 1, bytes =>
    let bytes := skipComments (length + 1) bytes
    match exactly (Bytes.ascii "BI") bytes with
    | some (_, bytes) => do
      let (image, rest) ← inlineImage length bytes
      return image :: (← operations length rest)
    | none =>
      match operation (length + 1) bytes with
      | none => some []
      | some (operation, rest) => (operations length rest).map (operation :: ·)

end Parser

namespace Operation

/-- The operations of content without inline images. -/
def readAll (content : Bytes) : Option (List Operation) :=
  Parser.operations content.length (Parser.skipOperandGap content)

/-- An operation as it is written, without the end of the line. -/
def print (operation : Operation) : Bytes :=
  operation.operands.flatMap (fun operand => operand.print ++ [32]) ++
    Text.toBytes operation.keyword

end Operation
end Monochrome
