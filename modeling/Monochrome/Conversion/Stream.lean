import Monochrome.Content.Basic
import Monochrome.Conversion.Paint

/-!
# Converting content

Each operation of a stream becomes one operation: those that set a color set its gray level
instead, those that select a color space select gray, and those that paint stay, while what they
paint with is converted.  In a pattern space the pattern stays selected.
-/

namespace Monochrome
namespace Conversion

/-- A gray level as an operand, rounded to six decimals, and without the sign of a zero. -/
def grayOperand (level : Float) : Object :=
  let rounded := Scalar.round .nearest (level * 1000000.0) / 1000000.0
  if Scalar.same rounded 0.0 then .real 0.0 else .real (Precision.narrow rounded)

/-- The gray level of a color as an operand. -/
def grayLevel (color : Rgb Float32) : Object :=
  grayOperand (Precision.widen color.gray)

/-- An operation that sets a color, which is counted. -/
def counted (operation : Operation) : Change Walk Operation := do
  Walk.onJob <| Job.count fun counts =>
    { counts with operatorsConverted := counts.operatorsConverted + 1 }
  return operation

/-- Reads later colors in a slot in the space that a pattern space was before, and remembers to
make it gray. -/
def noteSpace (slot : Slot) (name : String) : Change Walk Unit := do
  let walk ← get
  match ← formerSpace? walk.toScene name with
  | some former =>
    modify fun walk => { walk with state := walk.state.setInk slot (.initial former) }
  | none => pure ()
  modify fun walk => { walk with patternSpaces := walk.patternSpaces.insert name }

/-- The operation that selects a color space. -/
def convertSpace (slot : Slot) (operation : Operation) : Change Walk Operation := do
  if ((← get).state.ink slot).space.isPattern then
    let name ← Operands.singleName operation.keyword operation.operands
    if name ≠ "Pattern" then noteSpace slot name
    return operation
  else counted { operation with operands := [.named "DeviceGray"] }

/-- The operands that set the gray level of a color.  The color under a pattern is told in the
space that the pattern space is over. -/
def convertColor (convert : StreamConversion) (ink : Ink) : Change Walk (List Object) := do
  match ink.color with
  | .components values => return [grayLevel (← ink.space.toRgb values)]
  | .pattern name underlying =>
    convertNamedPattern convert name
    let pattern := Object.name (Text.toBytes name)
    match underlying, ink.space with
    | none, _ => return [pattern]
    | some values, .patternOver space => return [grayLevel (← space.toRgb values), pattern]
    | some _, _ => throw (.mismatch .underlyingSpace)

/-- The operation that sets the gray level of red, green and blue. -/
def convertRgb (slot : Slot) (operation : Operation) : Change Walk Operation := do
  Operands.expectCount operation.keyword operation.operands 3
  match ← Operands.numbers operation.keyword operation.operands with
  | [red, green, blue] =>
    let level := luminance (Precision.widen red) (Precision.widen green) (Precision.widen blue)
    counted ⟨slot.grayKeyword, [grayOperand level]⟩
  | _ => return operation

/-- The operation that sets the gray level of four inks. -/
def convertInks (slot : Slot) (operation : Operation) : Change Walk Operation := do
  Operands.expectCount operation.keyword operation.operands 4
  match ← Operands.numbers operation.keyword operation.operands with
  | [cyan, magenta, yellow, black] =>
    let level := inkLuminance (Precision.widen cyan) (Precision.widen magenta)
      (Precision.widen yellow) (Precision.widen black)
    counted ⟨slot.grayKeyword, [grayOperand level]⟩
  | _ => return operation

/-- Converts the external objects that operands name, in order. -/
def convertXObjects (convert : StreamConversion) (operands : List Object) : Change Walk Unit := do
  if operands.isEmpty then throw (.operands "Do" .noXObjectName)
  operands.forM fun operand => do
    convertNamedXObject convert (← Operands.nameOf "Do" operand)

/-- The operation in gray, after the graphics state has followed it. -/
def convertFollowed (convert : StreamConversion) (operation : Operation) :
    Change Walk Operation := do
  match Operator.ofKeyword operation.keyword with
  | .saveState | .restoreState | .setGray _ | .other => return operation
  | .setSpace slot => convertSpace slot operation
  | .setColor slot | .setPatternColor slot =>
    let operands ← convertColor convert ((← get).state.ink slot)
    counted { operation with operands := operands }
  | .setRgb slot => convertRgb slot operation
  | .setCmyk slot => convertInks slot operation
  | .paintShading =>
    convertNamedShading (← Operands.singleName operation.keyword operation.operands)
    return operation
  | .inlineImage =>
    let image ← Operands.inlineImage operation.operands
    return Content.imageOperation (← Walk.onScene (convertInlineImage image))
  | .paintXObject =>
    convertXObjects convert operation.operands
    return operation

/-- The operation in gray. -/
def convertOperation (convert : StreamConversion) (operation : Operation) :
    Change Walk Operation := do
  let walk ← get
  let operator := Operator.ofKeyword operation.keyword
  let state ← walk.state.apply walk.scope operator operation.operands
  modify fun walk => { walk with state := state }
  convertFollowed convert operation

/-- The content in gray. -/
def convertOperations (convert : StreamConversion) (content : Bytes) : Change Walk Bytes := do
  let operations ← Content.read content
  let converted ← operations.mapM (convertOperation convert)
  Content.write converted

/-- Converts the content of a stream in which streams are nested to less than the given depth. -/
def convertStream : Nat → StreamConversion
  | 0, _, _ => do throw (.nesting (← get).converter.options.maxNestingDepth)
  | depth + 1, location, content => do
    let result ← Scene.inside location <|
      Walk.through (convertOperations (convertStream depth) content)
    Scene.onJob <| Job.count fun counts =>
      { counts with streamsConverted := counts.streamsConverted + 1 }
    return result

/-- How streams are converted with the options of a converter. -/
def streamConversion (converter : Converter) : StreamConversion :=
  convertStream (Trail.levels converter.options.maxNestingDepth)

/-- Converts content and what it paints with to gray. -/
def contentToGray (content : Bytes) : Change Scene Bytes := do
  convertOwn (streamConversion (← get).converter) none content

/-- Converts a pattern to gray. -/
def patternToGray (pattern : Pattern) : Change Job Pattern := do
  convertPattern (streamConversion (← get).converter) pattern

end Conversion
end Monochrome
