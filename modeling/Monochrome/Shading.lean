import Monochrome.Change
import Monochrome.ColorSpace.Storage

/-!
# Shadings

A shading is a dictionary, or a stream for meshes.  In gray it keeps its function or mesh, whose
colors are read in the gray partner of its color space.
-/

namespace Monochrome
namespace Shading

/-- The dictionary of a shading. -/
def entries (shading : Object) : Outcome Dictionary :=
  match shading.entries? with
  | some entries => .ok entries
  | none => .error (.mismatch .shading)

/-- A shading with its dictionary changed. -/
def changeEntries (change : Dictionary → Dictionary) : Object → Object
  | .dictionary entries => .dictionary (change entries)
  | .stream entries data => .stream (change entries) data
  | other => other

/-- The color space of a shading. -/
def colorSpace (document : Document) (shading : Object) : Outcome (ColorSpace Float32 Float) := do
  match (← entries shading).get? "ColorSpace" with
  | some space => ColorSpace.read document space
  | none => throw (.mismatch .shadingSpace)

/-- A background in the gray partner of a color space: its gray level, or the same components if
the partner has as many. -/
def grayBackground (space gray : ColorSpace Float32 Float) (values : List Float32) :
    Outcome (List Float32) := do
  let color ← space.makeColor values
  match gray with
  | .deviceGray => return [← space.grayOfColor color]
  | _ => return values

/-- The gray partner of the color space of a shading, and its background in that space. -/
def grayParts (document : Document) (shading : Object) :
    Outcome (ColorSpace Float32 Float × Option (List Float32)) := do
  let space ← colorSpace document shading
  let gray ← space.toGray
  let background ← ((← entries shading).get? "Background").mapM document.numbers
  return (gray, ← background.mapM (grayBackground space gray))

/-- The shading in gray. -/
def toGray (shading : Object) : Change Document Object := do
  let (gray, background) ← grayParts (← get) shading
  let space ← Change.always id (fun document _ => document) gray.toObject
  return changeEntries
    (fun entries =>
      let entries := entries.set "ColorSpace" space
      match background with
      | some values => entries.set "Background" (Object.reals values)
      | none => entries)
    shading

/-- Whether a shading paints in color, judged by its color space: one component is gray, and so
are inks that are mixed from gray. -/
def isColored (document : Document) (shading : Object) : Outcome Bool := do
  let space ← colorSpace document shading
  match space with
  | .separation _ .deviceGray _ => return false
  | .deviceN _ .deviceGray _ _ => return false
  | space =>
    if space.componentCount = 1 then return false
    else if space.componentCount = 3 || space.componentCount = 4 then return true
    else throw (.unsupportedSpace space.componentCount)

end Shading
end Monochrome
