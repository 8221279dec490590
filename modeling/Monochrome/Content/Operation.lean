import Monochrome.Object.Access

/-!
# Operations

A content stream is a list of operations: operands followed by an operator.  The readers below
check the operands of the operators that set colors.
-/

namespace Monochrome

/-- A keyword with the operands before it.  An inline image is one operation whose operand is
a stream. -/
structure Operation where
  keyword : String
  operands : List Object
deriving Inhabited

namespace Operands

/-- Refuses operands that are not as many as given. -/
def expectCount (keyword : String) (operands : List Object) (count : Nat) : Outcome Unit :=
  if operands.length = count then .ok ()
  else .error (.operands keyword (.count count operands.length))

/-- The operands as numbers. -/
def numbers (keyword : String) (operands : List Object) : Outcome (List Float32) :=
  operands.mapM fun operand =>
    match operand.number? with
    | some number => .ok number
    | none => .error (.operands keyword .notANumber)

/-- An operand as the text of a name. -/
def nameOf (keyword : String) (operand : Object) : Outcome String :=
  match operand.text? with
  | some name => .ok name
  | none => .error (.operands keyword .notAName)

/-- The text of the name that is the only operand. -/
def singleName (keyword : String) (operands : List Object) : Outcome String := do
  expectCount keyword operands 1
  match operands with
  | [operand] => nameOf keyword operand
  | _ => throw (.operands keyword (.count 1 operands.length))

/-- The stream that is the only operand of an inline image. -/
def inlineImage : List Object → Outcome Stream
  | [.stream entries data] => .ok ⟨entries, data⟩
  | _ => .error (.operands "BI" .noInlineImage)

end Operands
end Monochrome
