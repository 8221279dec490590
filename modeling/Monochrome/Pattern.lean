import Monochrome.ContentStream

/-!
# Patterns

A tiling repeats a cell of content, which sets its own colors or is painted in the current one.
A shading pattern paints a smooth transition.
-/

namespace Monochrome

/-- What areas can be painted with instead of a color. -/
inductive Pattern
  /-- A repeated cell; a paint type of one tells that the cell sets its own colors. -/
  | tiling (cell : ContentStream) (paintType : Int64)
  /-- A smooth transition, with the number of the object that its shading is, if it is one. -/
  | shading (entries : Dictionary) (shading : Object) (location : Option ObjectId)

namespace Pattern

/-- The shading pattern of a dictionary. -/
def readShading (document : Document) (entries : Dictionary) : Outcome Pattern := do
  let some entry := entries.get? "Shading" | throw (.mismatch .patternShading)
  let (location, value) ← document.resolveWithId entry
  return shading entries value location

/-- Reads a pattern that is stored under the given number, if under any. -/
def read (document : Document) (location : Option ObjectId) (object : Object) :
    Outcome Pattern := do
  let some entries := object.entries? | throw (.mismatch .pattern)
  match ← document.integerEntry? entries "PatternType", object with
  | some 1, .stream entries data =>
    let paintType ← document.integerEntry? entries "PaintType"
    return tiling ⟨location, ⟨entries, data⟩⟩ (paintType.getD 1)
  | some 2, _ => readShading document entries
  | _, _ => throw (.mismatch .knownPattern)

/-- The object of a pattern. -/
def toObject : Pattern → Object
  | tiling cell _ => cell.stream.toObject
  | shading entries _ _ => .dictionary entries

/-- Whether the cell of a tiling sets its own colors. -/
def setsColors (paintType : Int64) : Bool :=
  paintType = 1

end Pattern
end Monochrome
