import Monochrome.Content.Operation
import Monochrome.Content.Operator
import Monochrome.Resources.ColorSpaces

/-!
# Graphics states

The color part of the graphics state: for lines and for areas a color space and a color.  States
are saved on a stack and restored from it.
-/

namespace Monochrome

/-- A color space and a color of it. -/
structure Ink where
  space : ColorSpace Float32 Float
  color : Color Float32

namespace Ink

/-- The first color of a space. -/
def initial (space : ColorSpace Float32 Float) : Ink :=
  ⟨space, space.initialColor⟩

instance : Inhabited Ink :=
  ⟨initial .deviceGray⟩

end Ink

/-- The colors in which lines and areas are painted. -/
structure Inks where
  stroke : Ink := default
  fill : Ink := default
deriving Inhabited

namespace Inks

/-- The color in a slot. -/
def get (inks : Inks) : Slot → Ink
  | .stroke => inks.stroke
  | .fill => inks.fill

/-- The colors with one slot changed. -/
def set (inks : Inks) (slot : Slot) (ink : Ink) : Inks :=
  match slot with
  | .stroke => { inks with stroke := ink }
  | .fill => { inks with fill := ink }

end Inks

/-- The current colors and the saved ones, the last saved first. -/
structure GraphicsState where
  current : Inks := default
  saved : List Inks := []
deriving Inhabited

namespace GraphicsState

/-- The current color in a slot. -/
def ink (state : GraphicsState) (slot : Slot) : Ink :=
  state.current.get slot

/-- The state with another current color in a slot. -/
def setInk (state : GraphicsState) (slot : Slot) (ink : Ink) : GraphicsState :=
  { state with current := state.current.set slot ink }

/-- The state with the current colors saved. -/
def save (state : GraphicsState) : GraphicsState :=
  { state with saved := state.current :: state.saved }

/-- The state with the last saved colors restored, if there are some. -/
def restore (state : GraphicsState) : GraphicsState :=
  match state.saved with
  | inks :: saved => ⟨inks, saved⟩
  | [] => state

/-- The color space that an operand names. -/
def namedSpace (scope : Scope) (keyword : String) (operands : List Object) :
    Outcome (ColorSpace Float32 Float) := do
  let name ← Operands.singleName keyword operands
  match ColorSpace.ofName? name with
  | some space => return space
  | none => scope.colorSpace name

/-- The color of a space with the given components. -/
def plainColor (space : ColorSpace Float32 Float) (keyword : String) (operands : List Object) :
    Outcome (Color Float32) := do
  space.makeColor (← Operands.numbers keyword operands)

/-- The pattern that the last operand names, with the color that the others tell. -/
def patternColor (keyword : String) (operands : List Object) : Outcome (Color Float32) := do
  let some last := operands.getLast? | throw (.operands keyword .noPatternName)
  let name ← Operands.nameOf keyword last
  match operands.dropLast with
  | [] => return .pattern name none
  | rest => return .pattern name (some (← Operands.numbers keyword rest))

/-- The color of a device space with the given components. -/
def deviceInk (space : ColorSpace Float32 Float) (keyword : String) (operands : List Object) :
    Outcome Ink := do
  Operands.expectCount keyword operands space.componentCount
  return ⟨space, ← plainColor space keyword operands⟩

/-- The color in a slot after an operator that sets it. -/
def inkAfter (scope : Scope) (ink : Ink) (operator : Operator) (operands : List Object) :
    Outcome Ink :=
  let keyword := operator.keyword?.getD ""
  match operator with
  | .setSpace _ => return .initial (← namedSpace scope keyword operands)
  | .setColor _ => return { ink with color := ← plainColor ink.space keyword operands }
  | .setPatternColor _ =>
    if ink.space.isPattern then return { ink with color := ← patternColor keyword operands }
    else return { ink with color := ← plainColor ink.space keyword operands }
  | .setGray _ => deviceInk .deviceGray keyword operands
  | .setRgb _ => deviceInk .deviceRgb keyword operands
  | .setCmyk _ => deviceInk .deviceCmyk keyword operands
  | _ => .ok ink

/-- The state after an operation. -/
def apply (scope : Scope) (state : GraphicsState) (operator : Operator)
    (operands : List Object) : Outcome GraphicsState :=
  match operator, operator.slot? with
  | .saveState, _ => .ok state.save
  | .restoreState, _ => .ok state.restore
  | operator, some slot =>
    return state.setInk slot (← inkAfter scope (state.ink slot) operator operands)
  | _, none => .ok state

end GraphicsState
end Monochrome
