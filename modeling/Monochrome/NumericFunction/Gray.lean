import Monochrome.NumericFunction.Basic

/-!
# Functions to gray

The luminance formulas as calculator programs, and a function through given samples.  They are
the functions with which colors are shown in gray.
-/

namespace Monochrome
namespace NumericFunction

variable {Single Double : Type} [Scalar Single] [Scalar Double]

/-- The interval from zero to one, once for each of the given number of values. -/
def unitIntervals (count : Nat) : List Single :=
  (List.replicate count [0.0, 1.0]).flatten

open Calculator in
/-- The program that weighs three values and adds them up. -/
def weighing : Program Double :=
  [.real 0.11, .operator .mul, .operator .exchange, .real 0.59, .operator .mul, .operator .add,
    .operator .exchange, .real 0.3, .operator .mul, .operator .add]

/-- The gray level of red, green and blue. -/
def rgbToGray : NumericFunction Single Double :=
  .calculator ⟨unitIntervals 3, some (unitIntervals 1)⟩ weighing

open Calculator in
/-- The gray level of inks. -/
def inksToGray : NumericFunction Single Double :=
  .calculator ⟨unitIntervals 4, some (unitIntervals 1)⟩
    [.operator .exchange, .real 0.11, .operator .mul, .operator .add, .operator .exchange,
      .real 0.59, .operator .mul, .operator .add, .operator .exchange, .real 0.3, .operator .mul,
      .operator .add, .operator .duplicate, .real 1.0, .operator .atLeast,
      .procedure [.operator .discard, .real 1.0], .operator .when, .real 1.0,
      .operator .exchange, .operator .sub]

/-- The function of one input between zero and one that takes the given values at equal
distances and is straight between them.  Each point has as many values as there are outputs, and
at least one. -/
def throughSamples (values : List Single) (outputs : Nat) : NumericFunction Single Double :=
  let outputs := max outputs 1
  let points := max (values.length / outputs) 1
  .sampled ⟨unitIntervals 1, some (unitIntervals outputs)⟩ {
    size := [points]
    bits := 8
    encode := [0.0, Scalar.ofNat (points - 1)]
    decode := unitIntervals outputs
    samples := values.map Scalar.levelByte }

end NumericFunction
end Monochrome
