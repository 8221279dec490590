import Monochrome.ColorSpace.Storage
import Monochrome.Resources.Basic

/-!
# Named color spaces

A color space is named in the resources, or by the name of a device space.
-/

namespace Monochrome
namespace Scope

/-- The color space with a name; an entry comes before the device space of that name. -/
def colorSpace (scope : Scope) (name : String) : Outcome (ColorSpace Float32 Float) := do
  match ← scope.lookup? .colorSpace name with
  | some entry => ColorSpace.read scope.document entry.value
  | none =>
    match ColorSpace.ofName? name with
    | some space => return space
    | none => throw (.undefined (.resource .colorSpace) name)

/-- Puts a color space in the place of the one with a name. -/
def setColorSpace (name : String) (space : ColorSpace Float32 Float) : Change Scope Unit := do
  set .colorSpace name (← onDocument space.toObject)

end Scope
end Monochrome
