import Monochrome.Scalar

/-!
# Options

What the user can choose about conversion and detection.
-/

namespace Monochrome

/-- The choices of the user. -/
structure Options where
  /-- Leaves images alone whose codec only holds gray. -/
  ignoreGrayFilters : Bool := true
  /-- The difference of two channels up to which a color counts as gray. -/
  colorTolerance : Float32 := 3.1 / 255.0
  /-- The quality of photographic data. -/
  jpegQuality : Nat := 75
  /-- How deep forms and patterns may be nested. -/
  maxNestingDepth : Nat := 32
  /-- Compresses the content that is written. -/
  compressStreams : Bool := true
deriving Inhabited

end Monochrome
