import Monochrome.ColorSpace.Convert
import Monochrome.NumericFunction.Gray

/-!
# Gray color spaces

Each color space has a partner with as many components in which every color is gray: palettes
keep their indices, inks their names, and three or four components become inks whose function
computes the luminance.
-/

namespace Monochrome
namespace ColorSpace

variable {Single Double : Type} [Scalar Single] [Analysis Single] [Scalar Double]
  [Analysis Double] [Precision Single Double]

/-- The gray bytes of a palette, for the entries from zero to a last one. -/
def grayPalette (base : ColorSpace Single Double) (last : Nat) (palette : Bytes) :
    Outcome Bytes :=
  (List.range (last + 1)).mapM fun index => do
    let gray ← base.grayOfComponents (← paletteEntry base palette index)
    return Scalar.levelByte gray

/-- The gray levels of one ink at 256 tints, and straight lines between them. -/
def grayTint (space : ColorSpace Single Double) : Outcome (NumericFunction Single Double) := do
  let samples ← (List.range 256).mapM fun step =>
    space.grayOfComponents [Scalar.ofNat step / 255.0]
  return .throughSamples samples 1

/-- The gray space with the given number of components. -/
def grayOfCount (count : Nat) : Outcome (ColorSpace Single Double) :=
  if count = 1 then .ok deviceGray
  else if count = 3 then .ok (deviceN ["R", "G", "B"] deviceGray .rgbToGray none)
  else if count = 4 then .ok (deviceN ["C", "M", "Y", "K"] deviceGray .inksToGray none)
  else .error (.unsupportedSpace count)

/-- The space in which everything is shown in gray that a space shows in color. -/
def toGray (space : ColorSpace Single Double) : Outcome (ColorSpace Single Double) :=
  match space with
  | pattern => .ok pattern
  | patternOver _ => .ok (patternOver deviceGray)
  | indexed base last palette => do
    return indexed deviceGray last (← grayPalette base last palette)
  | separation colorant _ _ => do
    return separation colorant deviceGray (← space.grayTint)
  | deviceN [colorant] _ _ attributes => do
    return deviceN [colorant] deviceGray (← space.grayTint) attributes
  | other => grayOfCount other.componentCount

end ColorSpace
end Monochrome
