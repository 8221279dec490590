import Monochrome.Color
import Monochrome.Object.Access
import Monochrome.NumericFunction.Basic

/-!
# Color spaces

A color space says what the components of a color mean.  Besides the device spaces there are
calibrated ones, profiles, palettes, and inks with a function to an alternate space.  Patterns
have a space of their own; in a pattern space over another one, colors choose also how a
pattern without colors is painted.  What is only passed on is kept as the object that it was
read from.
-/

namespace Monochrome

/-- A color space. -/
inductive ColorSpace (Single Double : Type)
  | deviceGray
  | deviceRgb
  | deviceCmyk
  /-- Calibrated gray. -/
  | calGray (source : Object)
  /-- Calibrated red, green and blue. -/
  | calRgb (source : Object)
  /-- Lightness and two opponent values, with the white point and the intervals of the
  latter. -/
  | lab (white : Single × Single × Single) (green blue : Single × Single) (source : Object)
  /-- A profile with the given number of components. -/
  | profile (components : Nat) (source : Object)
  /-- A profile that names another space with as many components. -/
  | profileOver (components : Nat) (alternate : ColorSpace Single Double) (source : Object)
  /-- A palette of colors of a base space, with entries up to a last one. -/
  | indexed (base : ColorSpace Single Double) (last : Nat) (palette : Bytes)
  | pattern
  | patternOver (underlying : ColorSpace Single Double)
  /-- One ink. -/
  | separation (colorant : String) (alternate : ColorSpace Single Double)
      (tint : NumericFunction Single Double)
  /-- Several inks. -/
  | deviceN (colorants : List String) (alternate : ColorSpace Single Double)
      (tint : NumericFunction Single Double) (attributes : Option Object)

namespace ColorSpace

variable {Single Double : Type}

/-- The number of components of a color; a pattern space has those of the space below it. -/
def componentCount : ColorSpace Single Double → Nat
  | deviceGray => 1
  | deviceRgb => 3
  | deviceCmyk => 4
  | calGray _ => 1
  | calRgb _ => 3
  | lab _ _ _ _ => 3
  | profile components _ => components
  | profileOver components _ _ => components
  | indexed _ _ _ => 1
  | pattern => 0
  | patternOver underlying => underlying.componentCount
  | separation _ _ _ => 1
  | deviceN colorants _ _ _ => colorants.length

/-- Whether the colors of a space are patterns. -/
def isPattern : ColorSpace Single Double → Bool
  | pattern => true
  | patternOver _ => true
  | _ => false

/-- The space that a name stands for by itself, abbreviations of inline images included. -/
def ofName? (name : String) : Option (ColorSpace Single Double) :=
  match name with
  | "DeviceGray" | "G" => some deviceGray
  | "DeviceRGB" | "RGB" => some deviceRgb
  | "DeviceCMYK" | "CMYK" => some deviceCmyk
  | "Pattern" => some pattern
  | _ => none

variable [Scalar Single]

/-- The color of a space before one is set: black or no light, full inks, and no pattern. -/
def initialColor : ColorSpace Single Double → Color Single
  | deviceCmyk => .components [0.0, 0.0, 0.0, 1.0]
  | lab _ green blue _ =>
    .components [0.0, Scalar.clip green.1 green.2 0.0, Scalar.clip blue.1 blue.2 0.0]
  | pattern => .components []
  | patternOver _ => .components []
  | separation _ _ _ => .components [1.0]
  | deviceN colorants _ _ _ => .components (List.replicate colorants.length 1.0)
  | space => .components (List.replicate space.componentCount 0.0)

/-- The color with the given components, if the space has as many. -/
def makeColor (space : ColorSpace Single Double) (values : List Single) :
    Outcome (Color Single) :=
  if values.length = space.componentCount then .ok (.components values)
  else .error (.color (.componentCount values.length space.componentCount))

/-- The interval of each component onto which image samples of the given number of bits are
mapped. -/
def sampleIntervals (space : ColorSpace Single Double) (bits : Nat) : List (Single × Single) :=
  match space with
  | indexed _ _ _ => [(0.0, Scalar.ofNat (2 ^ bits - 1))]
  | lab _ green blue _ => [(0.0, 100.0), green, blue]
  | space => List.replicate space.componentCount (0.0, 1.0)

end ColorSpace
end Monochrome
