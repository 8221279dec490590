import Monochrome.Object.Access

/-!
# Filters

The codings of stream data, by full and abbreviated name, and the parameters of the two that
have some.
-/

namespace Monochrome

/-- A coding of stream data. -/
inductive Filter
  | flate
  | lzw
  | runLength
  | asciiHex
  | ascii85
  | dct
  | jpx
  | ccittFax
  | jbig2
deriving DecidableEq, Repr

namespace Filter

/-- The filter with the given full or abbreviated name. -/
def ofName? (name : String) : Option Filter :=
  match name with
  | "FlateDecode" | "Fl" => some flate
  | "LZWDecode" | "LZW" => some lzw
  | "RunLengthDecode" | "RL" => some runLength
  | "ASCIIHexDecode" | "AHx" => some asciiHex
  | "ASCII85Decode" | "A85" => some ascii85
  | "DCTDecode" | "DCT" => some dct
  | "JPXDecode" => some jpx
  | "CCITTFaxDecode" | "CCF" | "CCITTDecode" => some ccittFax
  | "JBIG2Decode" => some jbig2
  | _ => none

/-- The full name of a filter. -/
def name : Filter → String
  | flate => "FlateDecode"
  | lzw => "LZWDecode"
  | runLength => "RunLengthDecode"
  | asciiHex => "ASCIIHexDecode"
  | ascii85 => "ASCII85Decode"
  | dct => "DCTDecode"
  | jpx => "JPXDecode"
  | ccittFax => "CCITTFaxDecode"
  | jbig2 => "JBIG2Decode"

/-- Whether a filter produces image samples instead of plain bytes. -/
def isImageCodec : Filter → Bool
  | dct | jpx | ccittFax | jbig2 => true
  | _ => false

/-- The filter that a full name names is found again. -/
@[simp] theorem ofName?_name (filter : Filter) : ofName? filter.name = some filter := by
  cases filter <;> rfl

/-- The parameters of the Flate and LZW filters. -/
structure Parameters where
  predictor : Int64 := 1
  colors : Nat := 1
  bits : Nat := 8
  columns : Nat := 1
  /-- Whether LZW codes grow one code early. -/
  earlyChange : Bool := true
deriving DecidableEq, Repr

namespace Parameters

/-- The parameters in a dictionary; what is missing or no integer has its default, and counts
are at least one. -/
def ofDictionary (document : Document) (dictionary : Dictionary) : Outcome Parameters := do
  let default : Parameters := {}
  let count := fun (value : Option Int64) (other : Nat) =>
    match value with
    | some value => (max value.toInt 1).toNat
    | none => other
  let predictor ← document.integerEntry? dictionary "Predictor"
  let colors ← document.integerEntry? dictionary "Colors"
  let bits ← document.integerEntry? dictionary "BitsPerComponent"
  let columns ← document.integerEntry? dictionary "Columns"
  let earlyChange ← document.integerEntry? dictionary "EarlyChange"
  return {
    predictor := predictor.getD default.predictor
    colors := count colors default.colors
    bits := count bits default.bits
    columns := count columns default.columns
    earlyChange := (earlyChange.map (· != 0)).getD default.earlyChange }

/-- Whether the data was changed by a predictor before compression. -/
def hasPredictor (parameters : Parameters) : Bool :=
  1 < parameters.predictor

end Parameters
end Filter
end Monochrome
