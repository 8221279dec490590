import Monochrome.ColorSpace.Gray
import Monochrome.NumericFunction.Storage

/-!
# Color spaces in documents

A color space is a name, or an array that begins with the name of a family.  Spaces inside a
space can stand anywhere in the document; reading a space that contains itself does not end within
any depth.
-/

namespace Monochrome
namespace ColorSpace

/-- The element of the array of a family of spaces. -/
def element (document : Document) (family : String) (items : List Object) (index : Nat) :
    Outcome Object :=
  match items[index]? with
  | some item => document.resolve item
  | none => .error (.color (.shortArray family))

/-- Reads the dictionary of a space of lightness and opponent values; what is missing is
daylight, and the interval from minus to plus one hundred. -/
def readLab (document : Document) (entries : Dictionary) (source : Object) :
    Outcome (ColorSpace Float32 Float) := do
  let white ← document.numbersOr entries "WhitePoint" []
  let range ← document.numbersOr entries "Range" []
  return .lab (white.getD 0 0.9505, white.getD 1 1.0, white.getD 2 1.089)
    (range.getD 0 (-100.0), range.getD 1 100.0) (range.getD 2 (-100.0), range.getD 3 100.0) source

/-- Reads the number of components of a profile. -/
def readProfileCount (document : Document) (entries : Dictionary) : Outcome Nat := do
  let some count := ← document.integerEntry? entries "N" | throw (.color .profileWithoutCount)
  if 1 ≤ count && count ≤ 32 then return count.toInt.toNat
  else throw (.mismatch .profileComponents)

/-- Reads the bytes of a palette. -/
def readPalette (document : Document) : Object → Outcome Bytes
  | .string bytes _ => .ok bytes
  | .stream entries data => Stream.content document ⟨entries, data⟩
  | _ => .error (.mismatch .palette)

/-- Reads the names of inks. -/
def readColorants (document : Document) : Object → Outcome (List String)
  | .array items => items.mapM fun item => do (← document.resolve item).asText
  | _ => .error (.mismatch .colorantNames)

/-- Reads the space of an array, given how the spaces inside it are read. -/
def readArray (document : Document) (inner : Object → Outcome (ColorSpace Float32 Float))
    (items : List Object) : Outcome (ColorSpace Float32 Float) := do
  let some first := items.head? | throw (.mismatch .colorSpace)
  let family ← (← document.resolve first).asText
  let element := element document family items
  let device? : Option (ColorSpace Float32 Float) :=
    if items.length = 1 then ofName? family else none
  match device? with
  | some space => return space
  | none =>
    match family with
    | "CalGray" => return calGray (.array items)
    | "CalRGB" => return calRgb (.array items)
    | "Lab" => readLab document (← (← element 1).asDictionary) (.array items)
    | "ICCBased" =>
      let stream ← (← element 1).asStream
      let components ← readProfileCount document stream.entries
      match stream.entries.get? "Alternate" with
      | some alternate => return profileOver components (← inner alternate) (.array items)
      | none => return profile components (.array items)
    | "Indexed" | "I" =>
      let base ← inner (← element 1)
      let some last := (← element 2).integer? | throw (.mismatch .paletteEnd)
      let palette ← readPalette document (← element 3)
      return indexed base (min (max last.toInt 0) 255).toNat palette
    | "Pattern" => return patternOver (← inner (← element 1))
    | "Separation" =>
      let colorant ← (← element 1).asText
      let alternate ← inner (← element 2)
      return separation colorant alternate (← NumericFunction.read document (← element 3))
    | "DeviceN" =>
      let colorants ← readColorants document (← element 1)
      let alternate ← inner (← element 2)
      let tint ← NumericFunction.read document (← element 3)
      return deviceN colorants alternate tint items[4]?
    | _ => throw (.undefined .colorSpaceFamily family)

/-- Reads a color space in which spaces are nested to less than the given depth. -/
def readWithin (document : Document) : Nat → Object → Outcome (ColorSpace Float32 Float)
  | 0, _ => .error .endless
  | depth + 1, object => do
    match ← document.resolve object with
    | .name bytes =>
      match ofName? (Text.ofBytes bytes) with
      | some space => return space
      | none => throw (.undefined .colorSpace (Text.ofBytes bytes))
    | .array items => readArray document (readWithin document depth) items
    | _ => throw (.mismatch .colorSpace)

/-- Reads a color space. -/
def read (document : Document) (object : Object) : Outcome (ColorSpace Float32 Float) :=
  readWithin document (NumericFunction.readingBudget document object) object

/-- The object of a color space.  Functions with samples or a program are added to the
document. -/
def toObject : ColorSpace Float32 Float → StateM Document Object
  | deviceGray => pure (.named "DeviceGray")
  | deviceRgb => pure (.named "DeviceRGB")
  | deviceCmyk => pure (.named "DeviceCMYK")
  | calGray source => pure source
  | calRgb source => pure source
  | lab _ _ _ source => pure source
  | profile _ source => pure source
  | profileOver _ _ source => pure source
  | indexed base last palette => do
    let base ← base.toObject
    return .array
      [.named "Indexed", base, .integer (Int64.ofNat last), .string palette .hexadecimal]
  | pattern => pure (.named "Pattern")
  | patternOver underlying => do
    let underlying ← underlying.toObject
    return .array [.named "Pattern", underlying]
  | separation colorant alternate tint => do
    let alternate ← alternate.toObject
    let tint ← tint.toObject
    return .array [.named "Separation", .name (Text.toBytes colorant), alternate, tint]
  | deviceN colorants alternate tint attributes => do
    let names := Object.array (colorants.map fun colorant => .name (Text.toBytes colorant))
    let alternate ← alternate.toObject
    let tint ← tint.toObject
    return .array ([.named "DeviceN", names, alternate, tint] ++ attributes.toList)

end ColorSpace
end Monochrome
