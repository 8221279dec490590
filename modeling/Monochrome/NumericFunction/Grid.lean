import Monochrome.Fault
import Monochrome.NumericFunction.Basic

/-!
# Sampled functions

The value of a sampled function is interpolated between the samples at the corners of the grid
cell around the encoded inputs.  Each dimension doubles the corners; a corner has as its weight
the product of its nearness along each dimension.
-/

namespace Monochrome
namespace SampleTable

variable {Single : Type} [Scalar Single]

/-- A position along one dimension of a grid. -/
structure Axis (Single : Type) where
  /-- The number of samples along the dimension. -/
  size : Nat
  position : Single

namespace Axis

/-- The grid point at or before a position. -/
def lower (axis : Axis Single) : Nat :=
  Scalar.toNat (Scalar.round .down axis.position)

/-- The grid point after a position; the last one has none. -/
def upper (axis : Axis Single) : Nat :=
  min (axis.lower + 1) (axis.size - 1)

/-- How far a position is past its lower grid point. -/
def fraction (axis : Axis Single) : Single :=
  axis.position - Scalar.ofNat axis.lower

end Axis

/-- A grid point with the weight of its sample. -/
structure Corner (Single : Type) where
  weight : Single
  /-- The number of grid points before this one. -/
  offset : Nat

/-- The corner moved along a dimension in which one step passes the given number of grid
points. -/
def Corner.move (corner : Corner Single) (weight : Single) (steps stride : Nat) : Corner Single :=
  ⟨corner.weight * weight, corner.offset + steps * stride⟩

/-- The corners of a cell, given those of its projection on the dimensions before. -/
def cornersFrom (stride : Nat) (corners : List (Corner Single)) :
    List (Axis Single) → List (Corner Single)
  | [] => corners
  | axis :: rest =>
    let lower := corners.map (·.move (1.0 - axis.fraction) axis.lower stride)
    let upper := corners.map (·.move axis.fraction axis.upper stride)
    cornersFrom (stride * axis.size) (lower ++ upper) rest

/-- The corners of the cell around a position. -/
def corners (axes : List (Axis Single)) : List (Corner Single) :=
  cornersFrom 1 [⟨1.0, 0⟩] axes

/-- The sample with the given number, of which the lowest 32 bits count. -/
def sampleAt (table : SampleTable Single) (index : Nat) : Except FunctionFault Nat :=
  let start := index * table.bits.toNat
  let finish := start + table.bits.toNat
  let last := (finish + 7) / 8
  if table.samples.length < last then .error .shortSamples
  else
    let bytes := (table.samples.drop (start / 8)).take (last - start / 8)
    let value := Bytes.bigEndian bytes / 2 ^ (8 * last - finish)
    .ok (value % 2 ^ table.bits.toNat % 2 ^ 32)

/-- The number of outputs. -/
def outputCount (table : SampleTable Single) : Nat :=
  table.decode.length / 2

/-- The outputs so far with the weighted samples of a corner added.  A corner without weight is
not looked at. -/
def addCorner (table : SampleTable Single) (outputs : List Single) (corner : Corner Single) :
    Except FunctionFault (List Single) :=
  if Scalar.same corner.weight 0.0 then .ok outputs
  else
    outputs.zipIdx.mapM fun (output, index) => do
      let sample ← table.sampleAt (corner.offset * table.outputCount + index)
      return output + corner.weight * Scalar.ofNat sample

/-- The encoded position of inputs. -/
def axes (table : SampleTable Single) (domain : List (Single × Single)) (inputs : List Single) :
    List (Axis Single) :=
  let encoded := List.zipWith
    (fun (input, low, high) (newLow, newHigh) => Scalar.interpolate input low high newLow newHigh)
    (inputs.zip domain) (pairs table.encode)
  List.zipWith
    (fun position size => ⟨size, Scalar.clip 0.0 (Scalar.ofNat (size - 1)) position⟩)
    encoded table.size

/-- The greatest sample. -/
def maxSample (table : SampleTable Single) : Single :=
  Scalar.ofNat (2 ^ table.bits.toNat - 1)

/-- The weighted sums of samples around inputs that are in the domain. -/
def weightedSums (table : SampleTable Single) (domain : List (Single × Single))
    (inputs : List Single) : Except FunctionFault (List Single) :=
  if table.size.length < inputs.length || table.encode.length < 2 * inputs.length then
    .error .shortGrid
  else
    (corners (table.axes domain inputs)).foldlM table.addCorner
      (List.replicate table.outputCount 0.0)

/-- The outputs for inputs that are in the domain. -/
def evaluate (table : SampleTable Single) (domain : List (Single × Single))
    (inputs : List Single) : Except FunctionFault (List Single) := do
  let sums ← table.weightedSums domain inputs
  return List.zipWith
    (fun sum (low, high) => Scalar.interpolate sum 0.0 table.maxSample low high)
    sums (pairs table.decode)

end SampleTable
end Monochrome
