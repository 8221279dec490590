import Monochrome.Calculator.Syntax
import Monochrome.Bytes
import Monochrome.Scalar

/-!
# Functions

A function takes numbers, clipped to its domain, to numbers, clipped to its range.  It is given
by a table of samples, by a power, by other functions on parts of its domain, or by a calculator
program.  All but programs compute in single precision.
-/

namespace Monochrome

/-- The intervals of the inputs and of the outputs: pairs of a lower and an upper bound, one
after the other. -/
structure Bounds (Single : Type) where
  domain : List Single
  range : Option (List Single)
deriving DecidableEq

/-- Samples on a grid.  The first dimension varies fastest. -/
structure SampleTable (Single : Type) where
  /-- The number of samples along each dimension. -/
  size : List Nat
  /-- The number of bits of a sample. -/
  bits : UInt8
  /-- The interval of grid positions onto which each input is mapped. -/
  encode : List Single
  /-- The interval onto which the samples of each output are mapped. -/
  decode : List Single
  samples : Bytes
deriving DecidableEq

/-- A function from numbers to numbers. -/
inductive NumericFunction (Single Double : Type)
  | sampled (bounds : Bounds Single) (table : SampleTable Single)
  /-- Goes from one value at zero to another at one along a power. -/
  | exponential (bounds : Bounds Single) (start finish : List Single) (exponent : Single)
  /-- Parts side by side, with the limits between them and the interval onto which each part's
  inputs are mapped. -/
  | stitched (bounds : Bounds Single) (parts : List (NumericFunction Single Double))
      (limits encode : List Single)
  | calculator (bounds : Bounds Single) (program : Calculator.Program Double)

/-- Consecutive pairs of a list. -/
def pairs : List α → List (α × α)
  | first :: second :: rest => (first, second) :: pairs rest
  | _ => []

namespace NumericFunction

variable {Single Double : Type}

/-- The bounds of the inputs and outputs of a function. -/
def bounds : NumericFunction Single Double → Bounds Single
  | sampled bounds _ => bounds
  | exponential bounds _ _ _ => bounds
  | stitched bounds _ _ _ => bounds
  | calculator bounds _ => bounds

/-- The number of inputs of a function. -/
def inputCount (function : NumericFunction Single Double) : Nat :=
  function.bounds.domain.length / 2

end NumericFunction

namespace Scalar

variable {Single : Type} [Scalar Single]

/-- Differences below this value count as zero. -/
def epsilon : Single := 1.1920928955078125e-7

/-- Maps a value from one interval to another along a straight line; an empty interval is mapped
to the start of the other one. -/
def interpolate (value low high newLow newHigh : Single) : Single :=
  if less (magnitude (high - low)) epsilon then newLow
  else newLow + (value - low) * (newHigh - newLow) / (high - low)

/-- Values moved into their intervals, as far as there are intervals. -/
def clipAll : List (Single × Single) → List Single → List Single
  | (low, high) :: intervals, value :: values => clip low high value :: clipAll intervals values
  | _, values => values

end Scalar
end Monochrome
