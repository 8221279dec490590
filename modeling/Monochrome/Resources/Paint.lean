import Monochrome.Pattern
import Monochrome.XObject

/-!
# Named patterns, shadings and objects

What content paints with is looked up by name; a name that is missing is a fault.
-/

namespace Monochrome
namespace Scope

/-- The pattern with a name. -/
def pattern (scope : Scope) (name : String) : Outcome Pattern := do
  let entry ← scope.lookup .pattern name
  Pattern.read scope.document entry.location entry.value

/-- The shading with a name. -/
def shading (scope : Scope) (name : String) : Outcome Object :=
  return (← scope.lookup .shading name).value

/-- The external object with a name. -/
def xobject (scope : Scope) (name : String) : Outcome XObject := do
  let entry ← scope.lookup .xobject name
  XObject.read scope.document entry.location entry.value

end Scope
end Monochrome
