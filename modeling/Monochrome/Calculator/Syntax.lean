/-!
# Calculator programs

A calculator function is a program for a stack machine: numbers, operators and procedures,
which are lists of these in turn.
-/

namespace Monochrome
namespace Calculator

/-- The operators of the calculator. -/
inductive Operator
  | abs
  | add
  | atan
  | ceiling
  | cos
  /-- Drops the fraction of a number. -/
  | toInteger
  /-- Turns an integer into a real number. -/
  | toReal
  | div
  | exp
  | floor
  /-- Divides integers, rounding toward zero. -/
  | quotient
  | ln
  | log
  /-- The remainder of dividing integers. -/
  | remainder
  | mul
  | neg
  | round
  | sin
  | sqrt
  | sub
  | truncate
  | conjunction
  | shift
  | equal
  | falsehood
  | atLeast
  | greater
  | atMost
  | less
  | unequal
  | complement
  | disjunction
  | truth
  | exclusion
  /-- Runs a procedure on a condition. -/
  | when
  /-- Runs one of two procedures. -/
  | choose
  /-- Repeats the topmost operands. -/
  | copy
  | duplicate
  | exchange
  /-- Repeats an operand from further down. -/
  | index
  | discard
  /-- Rotates the topmost operands. -/
  | roll
deriving DecidableEq, Repr

namespace Operator

/-- The keyword of an operator. -/
def keyword : Operator → String
  | abs => "abs"
  | add => "add"
  | atan => "atan"
  | ceiling => "ceiling"
  | cos => "cos"
  | toInteger => "cvi"
  | toReal => "cvr"
  | div => "div"
  | exp => "exp"
  | floor => "floor"
  | quotient => "idiv"
  | ln => "ln"
  | log => "log"
  | remainder => "mod"
  | mul => "mul"
  | neg => "neg"
  | round => "round"
  | sin => "sin"
  | sqrt => "sqrt"
  | sub => "sub"
  | truncate => "truncate"
  | conjunction => "and"
  | shift => "bitshift"
  | equal => "eq"
  | falsehood => "false"
  | atLeast => "ge"
  | greater => "gt"
  | atMost => "le"
  | less => "lt"
  | unequal => "ne"
  | complement => "not"
  | disjunction => "or"
  | truth => "true"
  | exclusion => "xor"
  | when => "if"
  | choose => "ifelse"
  | copy => "copy"
  | duplicate => "dup"
  | exchange => "exch"
  | index => "index"
  | discard => "pop"
  | roll => "roll"

/-- The operator that a keyword names. -/
def ofKeyword? (keyword : String) : Option Operator :=
  match keyword with
  | "abs" => some abs
  | "add" => some add
  | "atan" => some atan
  | "ceiling" => some ceiling
  | "cos" => some cos
  | "cvi" => some toInteger
  | "cvr" => some toReal
  | "div" => some div
  | "exp" => some exp
  | "floor" => some floor
  | "idiv" => some quotient
  | "ln" => some ln
  | "log" => some log
  | "mod" => some remainder
  | "mul" => some mul
  | "neg" => some neg
  | "round" => some round
  | "sin" => some sin
  | "sqrt" => some sqrt
  | "sub" => some sub
  | "truncate" => some truncate
  | "and" => some conjunction
  | "bitshift" => some shift
  | "eq" => some equal
  | "false" => some falsehood
  | "ge" => some atLeast
  | "gt" => some greater
  | "le" => some atMost
  | "lt" => some less
  | "ne" => some unequal
  | "not" => some complement
  | "or" => some disjunction
  | "true" => some truth
  | "xor" => some exclusion
  | "if" => some when
  | "ifelse" => some choose
  | "copy" => some copy
  | "dup" => some duplicate
  | "exch" => some exchange
  | "index" => some index
  | "pop" => some discard
  | "roll" => some roll
  | _ => none

/-- The keyword of an operator names it. -/
@[simp] theorem ofKeyword?_keyword (operator : Operator) :
    ofKeyword? operator.keyword = some operator := by
  cases operator <;> rfl

end Operator

/-- One step of a program over real numbers of the given type. -/
inductive Instruction (Real : Type)
  | integer (value : Int64)
  | real (value : Real)
  | operator (operator : Operator)
  | procedure (body : List (Instruction Real))
deriving Inhabited

/-- A list of instructions. -/
abbrev Program (Real : Type) :=
  List (Instruction Real)

end Calculator
end Monochrome
