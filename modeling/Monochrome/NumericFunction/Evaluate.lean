import Monochrome.Calculator.Run
import Monochrome.NumericFunction.Grid

/-!
# Evaluating functions

`apply` computes in single precision, with calculator programs in double precision inside.
`evaluate` takes and gives double precision, and keeps it for calculator programs.
-/

namespace Monochrome
namespace NumericFunction

variable {Single Double : Type} [Scalar Single] [Analysis Single] [Scalar Double]
  [Analysis Double] [Precision Single Double]

/-- The inputs of a function moved into its domain, if there are enough of them. -/
def clipInputs {Number : Type} [Scalar Number] (domain inputs : List Number) :
    Except FunctionFault (List Number) :=
  let expected := domain.length / 2
  if inputs.length < expected then .error (.inputCount expected inputs.length)
  else .ok (Scalar.clipAll (pairs domain) (inputs.take expected))

/-- Outputs moved into the range, if there is one. -/
def clipOutputs {Number : Type} [Scalar Number] (range : Option (List Number))
    (outputs : List Number) : List Number :=
  match range with
  | some range => Scalar.clipAll (pairs range) outputs
  | none => outputs

/-- The first input. -/
def firstInput {Number : Type} : List Number → Except FunctionFault Number
  | [] => .error .noInputs
  | input :: _ => .ok input

/-- The outputs along a power of an input. -/
def evaluatePower (start finish : List Single) (exponent input : Single) : List Single :=
  let power := Analysis.power input exponent
  List.zipWith (fun first last => first + power * (last - first)) start finish

/-- The part of a stitched function to which an input belongs. -/
def partIndex (count : Nat) (limits : List Single) (input : Single) : Nat :=
  min (limits.takeWhile fun limit => Scalar.atMost limit input).length (count - 1)

/-- The limits of a part of a stitched function: those given, and the ends of the domain. -/
def partLimits (domain : Single × Single) (limits : List Single) (index : Nat) :
    Single × Single :=
  let low := if index = 0 then domain.1 else limits.getD (index - 1) domain.1
  (low, limits.getD index domain.2)

/-- An input of a stitched function as the input of one of its parts. -/
def partInput (domain : List Single) (limits encode : List Single) (index : Nat)
    (input : Single) : Except FunctionFault Single :=
  match (pairs domain).head?, (pairs encode)[index]? with
  | some domain, some (newLow, newHigh) =>
    let (low, high) := partLimits domain limits index
    .ok (Scalar.interpolate input low high newLow newHigh)
  | none, _ => .error .noInputs
  | some _, none => .error .shortEncode

/-- The outputs of a program, given inputs that are in the domain. -/
def runProgram (program : Calculator.Program Double) (inputs : List Single) :
    Except FunctionFault (List Single) := do
  let outputs ← Calculator.evaluate program (inputs.map Precision.widen)
  return outputs.map Precision.narrow

mutual

/-- The outputs of a function in single precision. -/
def apply : NumericFunction Single Double → List Single → Except FunctionFault (List Single)
  | sampled bounds table, inputs => do
    let inputs ← clipInputs bounds.domain inputs
    let outputs ← table.evaluate (pairs bounds.domain) inputs
    return clipOutputs bounds.range outputs
  | exponential bounds start finish exponent, inputs => do
    let input ← firstInput (← clipInputs bounds.domain inputs)
    return clipOutputs bounds.range (evaluatePower start finish exponent input)
  | stitched bounds parts limits encode, inputs => do
    let input ← firstInput (← clipInputs bounds.domain inputs)
    let index := partIndex parts.length limits input
    let input ← partInput bounds.domain limits encode index input
    let outputs ← applyPart parts index [input]
    return clipOutputs bounds.range outputs
  | calculator bounds program, inputs => do
    let inputs ← clipInputs bounds.domain inputs
    let outputs ← runProgram program inputs
    return clipOutputs bounds.range outputs

/-- The outputs of the function with the given number in a list. -/
def applyPart : List (NumericFunction Single Double) → Nat → List Single →
    Except FunctionFault (List Single)
  | [], _, _ => .error .noParts
  | part :: _, 0, inputs => apply part inputs
  | _ :: parts, index + 1, inputs => applyPart parts index inputs

end

/-- The outputs of a function in double precision. -/
def evaluate (function : NumericFunction Single Double) (inputs : List Double) :
    Except FunctionFault (List Double) :=
  match function with
  | calculator bounds program => do
    let inputs ← clipInputs (bounds.domain.map Precision.widen) inputs
    let outputs ← Calculator.evaluate program inputs
    return clipOutputs (bounds.range.map (·.map Precision.widen)) outputs
  | other => do
    let outputs ← other.apply (inputs.map Precision.narrow)
    return outputs.map Precision.widen

/-- The outputs of functions that take the same inputs. -/
def applyAll (functions : List (NumericFunction Single Double)) (inputs : List Single) :
    Except FunctionFault (List Single) := do
  let outputs ← functions.mapM fun function => function.apply inputs
  return outputs.flatten

end NumericFunction
end Monochrome
