import Monochrome.ColorSpace.Basic
import Monochrome.NumericFunction.Evaluate

/-!
# Seeing colors

The color of light that components of a color space stand for.  A profile is read as the space
that it names, or else as the device space with as many components.
-/

namespace Monochrome

/-- The byte of a sample as a value in an interval. -/
def byteWithin {Single : Type} [Scalar Single] (byte : UInt8) (interval : Single × Single) :
    Single :=
  interval.1 + Scalar.ofNat byte.toNat / 255.0 * (interval.2 - interval.1)

namespace ColorSpace

variable {Single Double : Type} [Scalar Single] [Analysis Single] [Scalar Double]
  [Analysis Double] [Precision Single Double]

/-- The color of one component. -/
def ofOne (convert : Single → Outcome (Rgb Single)) : List Single → Outcome (Rgb Single)
  | [value] => convert value
  | _ => .error (.mismatch .fittingColor)

/-- The color of three components. -/
def ofThree (convert : Single → Single → Single → Rgb Single) :
    List Single → Outcome (Rgb Single)
  | [first, second, third] => .ok (convert first second third)
  | _ => .error (.mismatch .fittingColor)

/-- The color of four components. -/
def ofFour (convert : Single → Single → Single → Single → Rgb Single) :
    List Single → Outcome (Rgb Single)
  | [first, second, third, fourth] => .ok (convert first second third fourth)
  | _ => .error (.mismatch .fittingColor)

/-- The color of as many components as expected. -/
def ofMany (count : Nat) (convert : List Single → Outcome (Rgb Single)) (values : List Single) :
    Outcome (Rgb Single) :=
  if values.length = count then convert values else .error (.mismatch .fittingColor)

/-- The color of components of the device space that has as many. -/
def deviceToRgb : List Single → Outcome (Rgb Single)
  | [level] => .ok (.neutral level)
  | [red, green, blue] => .ok ⟨red, green, blue⟩
  | [cyan, magenta, yellow, black] => .ok (.ofInks cyan magenta yellow black)
  | values => .error (.unsupportedSpace values.length)

/-- The components in a base space of an entry of a palette. -/
def paletteEntry (base : ColorSpace Single Double) (palette : Bytes) (index : Nat) :
    Outcome (List Single) :=
  let bytes := (palette.drop (index * base.componentCount)).take base.componentCount
  if bytes.length = base.componentCount then
    .ok (List.zipWith byteWithin bytes (base.sampleIntervals 8))
  else .error (.color (.outsidePalette index))

/-- The entry of a palette that a component selects. -/
def paletteIndex (last : Nat) (value : Single) : Nat :=
  min (Scalar.toNat (Scalar.round .nearest value)) last

/-- The components in the alternate space of inks. -/
def alternateColor (alternate : ColorSpace Single Double) (tint : NumericFunction Single Double)
    (values : List Single) : Outcome (List Single) := do
  let outputs ← (tint.apply values).mapError .function
  return outputs.take alternate.componentCount

/-- The color that components of a space stand for. -/
def toRgb : ColorSpace Single Double → List Single → Outcome (Rgb Single)
  | deviceGray, values => ofOne (fun level => .ok (.neutral level)) values
  | deviceRgb, values => ofThree Rgb.mk values
  | deviceCmyk, values => ofFour Rgb.ofInks values
  | calGray _, values => ofOne (fun level => .ok (.neutral level)) values
  | calRgb _, values => ofThree Rgb.mk values
  | lab white _ _ _, values => ofThree (Lab.toRgb white) values
  | profile components _, values => ofMany components deviceToRgb values
  | profileOver components alternate _, values => ofMany components alternate.toRgb values
  | indexed base last palette, values =>
    ofOne (fun value => do
      base.toRgb (← paletteEntry base palette (paletteIndex last value))) values
  | pattern, values => ofMany 0 (fun _ => .error (.mismatch .plainSpace)) values
  | patternOver underlying, values =>
    ofMany underlying.componentCount (fun _ => .error (.mismatch .plainSpace)) values
  | separation _ alternate tint, values =>
    ofOne (fun value => do alternate.toRgb (← alternateColor alternate tint [value])) values
  | deviceN colorants alternate tint _, values =>
    ofMany colorants.length
      (fun values => do alternate.toRgb (← alternateColor alternate tint values)) values

/-- The color that a color of a space stands for.  A pattern has one only if it is painted in a
color of the space below. -/
def colorToRgb (space : ColorSpace Single Double) : Color Single → Outcome (Rgb Single)
  | .components values => space.toRgb values
  | .pattern _ none => .error (.mismatch .plainColor)
  | .pattern _ (some values) =>
    match space with
    | patternOver underlying => underlying.toRgb values
    | _ => .error (.mismatch .patternSpace)

/-- The gray level of components of a space. -/
def grayOfComponents (space : ColorSpace Single Double) (values : List Single) :
    Outcome Single :=
  return (← space.toRgb values).gray

/-- The gray level of a color of a space. -/
def grayOfColor (space : ColorSpace Single Double) (color : Color Single) : Outcome Single :=
  return (← space.colorToRgb color).gray

end ColorSpace
end Monochrome
