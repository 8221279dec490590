import Monochrome.Calculator.Syntax
import Monochrome.Fault
import Monochrome.Scalar

/-!
# Running calculator programs

A program works on a stack of operands, topmost first.  Procedures are operands too, so a
program can copy one and run it inside itself, and need not end.  The depth of procedures that run
inside each other is therefore counted down from a bound, and passing the bound is a fault of its
own.
-/

namespace Monochrome
namespace Calculator

/-- A value on the stack. -/
inductive Operand (Real : Type)
  | integer (value : Int64)
  | real (value : Real)
  | boolean (value : Bool)
  | procedure (body : Program Real)
deriving Inhabited

/-- The operands, topmost first. -/
abbrev Stack (Real : Type) :=
  List (Operand Real)

/-- The result of a step that can fail. -/
abbrev Step (α : Type) :=
  Except FunctionFault α

variable {Real : Type} [Scalar Real]

/-- The number that an operand is. -/
def Operand.number : Operand Real → Step Real
  | .integer value => .ok (Scalar.ofInt value.toInt)
  | .real value => .ok value
  | _ => .error .notANumber

/-- The topmost operand and those below. -/
def pop : Stack Real → Step (Operand Real × Stack Real)
  | [] => .error .underflow
  | top :: rest => .ok (top, rest)

/-- The topmost operand as a number. -/
def popNumber (stack : Stack Real) : Step (Real × Stack Real) := do
  let (top, rest) ← pop stack
  return (← top.number, rest)

/-- The topmost operand as an integer; a real number without fraction counts as one. -/
def popInteger (stack : Stack Real) : Step (Int64 × Stack Real) := do
  let (top, rest) ← pop stack
  match top with
  | .integer value => return (value, rest)
  | .real value =>
    if Scalar.isInteger value then return (Scalar.toInt64 value, rest)
    else throw .notAnInteger
  | _ => throw .notAnInteger

/-- The topmost operand as a truth value. -/
def popBoolean (stack : Stack Real) : Step (Bool × Stack Real) := do
  let (top, rest) ← pop stack
  match top with
  | .boolean value => return (value, rest)
  | _ => throw .notABoolean

/-- The topmost operand as a procedure. -/
def popProcedure (stack : Stack Real) : Step (Program Real × Stack Real) := do
  let (top, rest) ← pop stack
  match top with
  | .procedure body => return (body, rest)
  | _ => throw .notAProcedure

/-- Replaces the topmost number, which stays an integer if it is one. -/
def unary (onInteger : Int64 → Int64) (onReal : Real → Real) (stack : Stack Real) :
    Step (Stack Real) := do
  let (top, rest) ← pop stack
  match top with
  | .integer value => return .integer (onInteger value) :: rest
  | other => return .real (onReal (← other.number)) :: rest

/-- Replaces the topmost number by a real one. -/
def realUnary (onReal : Real → Real) (stack : Stack Real) : Step (Stack Real) := do
  let (value, rest) ← popNumber stack
  return .real (onReal value) :: rest

/-- Replaces the two topmost numbers by one, an integer if both are. -/
def arithmetic (onIntegers : Int64 → Int64 → Int64) (onReals : Real → Real → Real)
    (stack : Stack Real) : Step (Stack Real) := do
  let (second, rest) ← pop stack
  let (first, rest) ← pop rest
  match first, second with
  | .integer first, .integer second => return .integer (onIntegers first second) :: rest
  | first, second =>
    let first ← first.number
    return .real (onReals first (← second.number)) :: rest

/-- Replaces the two topmost integers by one; the upper one must not be zero. -/
def division (onIntegers : Int64 → Int64 → Int64) (stack : Stack Real) : Step (Stack Real) := do
  let (second, rest) ← popInteger stack
  let (first, rest) ← popInteger rest
  if second = 0 then throw .divisionByZero
  else return .integer (onIntegers first second) :: rest

/-- Replaces the two topmost numbers by the truth of a relation between them. -/
def relation (holds : Real → Real → Bool) (stack : Stack Real) : Step (Stack Real) := do
  let (second, rest) ← pop stack
  let (first, rest) ← pop rest
  let first ← first.number
  return .boolean (holds first (← second.number)) :: rest

/-- Replaces the two topmost operands by whether they are equal, or unequal. -/
def equality (wanted : Bool) (stack : Stack Real) : Step (Stack Real) := do
  match stack with
  | .boolean second :: .boolean first :: rest =>
    return .boolean ((first == second) == wanted) :: rest
  | stack => relation (fun first second => Scalar.same first second == wanted) stack

/-- Replaces the two topmost truth values, or the two topmost integers, by their
combination. -/
def bitwise (operator : Operator) (onBooleans : Bool → Bool → Bool)
    (onIntegers : Int64 → Int64 → Int64) (stack : Stack Real) : Step (Stack Real) := do
  let (second, rest) ← pop stack
  let (first, rest) ← pop rest
  match first, second with
  | .boolean first, .boolean second => return .boolean (onBooleans first second) :: rest
  | .integer first, .integer second => return .integer (onIntegers first second) :: rest
  | _, _ => throw (.operandTypes operator.keyword)

/-- Shifts the bits of an integer to the left, or to the right if the amount is negative. -/
def shiftBits (value amount : Int64) : Int64 :=
  if 0 ≤ amount then value <<< amount else value >>> (-amount)

/-- The number of operands that an integer asks for, if the stack has as many. -/
def countWithin (operator : Operator) (count : Int64) (stack : Stack Real) : Step Nat :=
  if count < 0 || (stack.length : Int) < count.toInt then .error (.outOfRange operator.keyword)
  else .ok count.toInt.toNat

/-- Rotates operands: the topmost go down by the given number of places. -/
def rotate (count : Nat) (places : Int) (stack : Stack Real) : Stack Real :=
  (stack.take count).rotateLeft (places % count).toNat ++ stack.drop count

variable [Analysis Real]

/-- The angle of a point in degrees from zero to 360. -/
def degrees (ordinate abscissa : Real) : Real :=
  let angle := Analysis.angle ordinate abscissa * (180.0 / Analysis.halfTurn)
  if Scalar.less angle 0.0 then angle + 360.0 else angle

/-- An angle in degrees as one in radians. -/
def radians (angle : Real) : Real :=
  angle * (Analysis.halfTurn / 180.0)

/-- The effect of an operator on the stack, given how a procedure runs. -/
def apply (call : Program Real → Stack Real → Step (Stack Real)) (operator : Operator)
    (stack : Stack Real) : Step (Stack Real) :=
  match operator with
  | .abs => unary (fun value => if value < 0 then -value else value) Scalar.magnitude stack
  | .neg => unary (- ·) (- ·) stack
  | .ceiling => unary id (Scalar.round .up) stack
  | .floor => unary id (Scalar.round .down) stack
  | .round => unary id (fun value => Scalar.round .down (value + 0.5)) stack
  | .truncate => unary id (Scalar.round .towardZero) stack
  | .add => arithmetic (· + ·) (· + ·) stack
  | .sub => arithmetic (· - ·) (· - ·) stack
  | .mul => arithmetic (· * ·) (· * ·) stack
  | .div => do
    let (second, rest) ← popNumber stack
    let (first, rest) ← popNumber rest
    if Scalar.same second 0.0 then throw .divisionByZero
    else return .real (first / second) :: rest
  | .quotient => division (· / ·) stack
  | .remainder => division (· % ·) stack
  | .atan => do
    let (abscissa, rest) ← popNumber stack
    let (ordinate, rest) ← popNumber rest
    return .real (degrees ordinate abscissa) :: rest
  | .cos => realUnary (fun angle => Analysis.cosine (radians angle)) stack
  | .sin => realUnary (fun angle => Analysis.sine (radians angle)) stack
  | .exp => do
    let (exponent, rest) ← popNumber stack
    let (base, rest) ← popNumber rest
    return .real (Analysis.power base exponent) :: rest
  | .ln => realUnary Analysis.naturalLog stack
  | .log => realUnary Analysis.decimalLog stack
  | .sqrt => realUnary Analysis.squareRoot stack
  | .toInteger => do
    let (value, rest) ← popNumber stack
    return .integer (Scalar.toInt64 value) :: rest
  | .toReal => realUnary id stack
  | .equal => equality true stack
  | .unequal => equality false stack
  | .atLeast => relation (fun first second => Scalar.atMost second first) stack
  | .greater => relation (fun first second => Scalar.less second first) stack
  | .atMost => relation Scalar.atMost stack
  | .less => relation Scalar.less stack
  | .conjunction => bitwise .conjunction (· && ·) (· &&& ·) stack
  | .disjunction => bitwise .disjunction (· || ·) (· ||| ·) stack
  | .exclusion => bitwise .exclusion (· != ·) (· ^^^ ·) stack
  | .complement => do
    let (top, rest) ← pop stack
    match top with
    | .boolean value => return .boolean (!value) :: rest
    | .integer value => return .integer (~~~value) :: rest
    | _ => throw (.operandTypes Operator.complement.keyword)
  | .shift => do
    let (amount, rest) ← popInteger stack
    let (value, rest) ← popInteger rest
    return .integer (shiftBits value amount) :: rest
  | .truth => .ok (.boolean true :: stack)
  | .falsehood => .ok (.boolean false :: stack)
  | .when => do
    let (body, rest) ← popProcedure stack
    let (condition, rest) ← popBoolean rest
    if condition then call body rest else return rest
  | .choose => do
    let (otherwise, rest) ← popProcedure stack
    let (body, rest) ← popProcedure rest
    let (condition, rest) ← popBoolean rest
    call (if condition then body else otherwise) rest
  | .copy => do
    let (count, rest) ← popInteger stack
    let count ← countWithin .copy count rest
    return rest.take count ++ rest
  | .duplicate => do
    let (top, rest) ← pop stack
    return top :: top :: rest
  | .exchange => do
    let (second, rest) ← pop stack
    let (first, rest) ← pop rest
    return first :: second :: rest
  | .index => do
    let (depth, rest) ← popInteger stack
    if depth < 0 then throw (.outOfRange Operator.index.keyword)
    else
      match rest[depth.toInt.toNat]? with
      | some operand => return operand :: rest
      | none => throw (.outOfRange Operator.index.keyword)
  | .discard => do
    let (_, rest) ← pop stack
    return rest
  | .roll => do
    let (places, rest) ← popInteger stack
    let (count, rest) ← popInteger rest
    let count ← countWithin .roll count rest
    return rotate count places.toInt rest

/-- Runs instructions in order, given how a procedure runs. -/
def runWith (call : Program Real → Stack Real → Step (Stack Real)) :
    Program Real → Stack Real → Step (Stack Real)
  | [], stack => .ok stack
  | .integer value :: rest, stack => runWith call rest (.integer value :: stack)
  | .real value :: rest, stack => runWith call rest (.real value :: stack)
  | .procedure body :: rest, stack => runWith call rest (.procedure body :: stack)
  | .operator operator :: rest, stack =>
    match apply call operator stack with
    | .ok stack => runWith call rest stack
    | .error fault => .error fault

/-- Runs a program in which procedures run inside each other to less than the given depth. -/
def run : Nat → Program Real → Stack Real → Step (Stack Real)
  | 0, _, _ => .error .nesting
  | depth + 1, program, stack => runWith (run depth) program stack

/-- Runs a program on real inputs, with procedures that run inside each other to less than the
given depth; the operands that it leaves, the lowest first, are the outputs. -/
def evaluateWithin (depth : Nat) (program : Program Real) (inputs : List Real) :
    Step (List Real) := do
  let stack ← run depth program (inputs.map .real).reverse
  stack.reverse.mapM Operand.number

/-- The depth to which procedures may run inside each other.  No memory holds as many, so a program
that does not end runs for as long as there is memory. -/
def maxDepth : Nat := 2 ^ 62

/-- Runs a program on real inputs; the operands that it leaves are the outputs. -/
def evaluate (program : Program Real) (inputs : List Real) : Step (List Real) :=
  evaluateWithin maxDepth program inputs

end Calculator
end Monochrome
