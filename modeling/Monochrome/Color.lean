import Monochrome.Scalar

/-!
# Colors and their luminance

The gray level of a color is its weighted sum of red, green and blue; inks darken by their
weighted coverage.  The formulas hold for every scalar, with the luminance taken in the wider
precision.  A color is visible if two of its channels differ by more than a tolerance.
-/

namespace Monochrome

/-- A color of light, each channel between zero and one. -/
structure Rgb (Single : Type) where
  red : Single
  green : Single
  blue : Single
deriving DecidableEq

/-- A color in a graphics state. -/
inductive Color (Single : Type)
  /-- One value for each component of the color space. -/
  | components (values : List Single)
  /-- A pattern, with the color in which it paints if it has none of its own. -/
  | pattern (name : String) (underlying : Option (List Single))
deriving DecidableEq

/-- The gray level of red, green and blue. -/
def luminance [Scalar α] (red green blue : α) : α :=
  0.3 * red + 0.59 * green + 0.11 * blue

/-- The gray level of inks: the complement of their coverage, which ends at full coverage. -/
def inkLuminance [Scalar α] (cyan magenta yellow black : α) : α :=
  let coverage := luminance cyan magenta yellow + black
  Scalar.clip 0.0 1.0 (1.0 - Scalar.upTo 1.0 coverage)

namespace Rgb

variable {Single Double : Type} [Scalar Single] [Scalar Double] [Precision Single Double]

/-- The gray level of a color. -/
def gray (color : Rgb Single) : Single :=
  Precision.narrow <|
    luminance (Precision.widen color.red) (Precision.widen color.green)
      (Precision.widen color.blue)

/-- The byte of the gray level of a color. -/
def grayByte (color : Rgb Single) : UInt8 :=
  Scalar.levelByte <|
    luminance (Precision.widen color.red) (Precision.widen color.green)
      (Precision.widen color.blue)

/-- The neutral color of a level. -/
def neutral (level : Single) : Rgb Single :=
  ⟨level, level, level⟩

/-- The gray level of inks. -/
def grayOfInks (cyan magenta yellow black : Single) : Single :=
  Precision.narrow <|
    inkLuminance (Precision.widen cyan) (Precision.widen magenta) (Precision.widen yellow)
      (Precision.widen black)

/-- The color of inks on paper: each channel is darkened by its ink and by black. -/
def ofInks (cyan magenta yellow black : Single) : Rgb Single :=
  ⟨1.0 - Scalar.upTo 1.0 (cyan + black), 1.0 - Scalar.upTo 1.0 (magenta + black),
    1.0 - Scalar.upTo 1.0 (yellow + black)⟩

/-- Whether two channels of a color differ by more than a tolerance. -/
def isColored (tolerance : Single) (color : Rgb Single) : Bool :=
  [color.red - color.green, color.red - color.blue, color.green - color.blue].any
    fun difference => Scalar.less tolerance (Scalar.magnitude difference)

end Rgb

namespace Lab

variable {Single : Type} [Scalar Single]

/-- The inverse of the lightness curve: a cube, and a straight line near zero. -/
def decurve (value : Single) : Single :=
  if Scalar.atMost (6.0 / 29.0) value then value * value * value
  else 108.0 / 841.0 * (value - 4.0 / 29.0)

/-- The transfer curve of displays. -/
def transfer [Analysis Single] (value : Single) : Single :=
  let value := Scalar.clip 0.0 1.0 value
  if Scalar.atMost value 0.0031308 then 12.92 * value
  else 1.055 * Analysis.power value (1.0 / 2.4) - 0.055

/-- The color of lightness and two opponent values under a white point. -/
def toRgb [Analysis Single] (white : Single × Single × Single) (lightness a b : Single) :
    Rgb Single :=
  let middle := (lightness + 16.0) / 116.0
  let x := white.1 * decurve (middle + a / 500.0)
  let y := white.2.1 * decurve middle
  let z := white.2.2 * decurve (middle - b / 200.0)
  ⟨transfer (3.2406 * x - 1.5372 * y - 0.4986 * z),
    transfer (-0.9689 * x + 1.8758 * y + 0.0415 * z),
    transfer (0.0557 * x - 0.2040 * y + 1.0570 * z)⟩

end Lab
end Monochrome
