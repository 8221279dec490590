import Monochrome.Conversion.Image
import Monochrome.Resources.Paint
import Monochrome.Shading

/-!
# Converting what content paints with

Patterns, shadings, forms and images are converted where a stream first uses them.  Cells of
patterns and forms are content in turn; how content is converted is given to the definitions
below as an argument.  Pattern spaces become gray only after the stream that uses them, because
their colors are told in the spaces that they were over.
-/

namespace Monochrome
namespace Conversion

/-- How the content of a stream is converted; the result tells also the named pattern spaces
that it selected. -/
abbrev StreamConversion :=
  Option ObjectId → Bytes → Change Scene (Bytes × Names)

/-- Makes the space gray that a named pattern space is over. -/
def convertPatternSpace (name : String) : Change Scene Unit := do
  let scene ← get
  let location ← scene.scope.location? .colorSpace name
  if location.any scene.converter.formerSpaces.contains then return
  match ← scene.scope.colorSpace name with
  | .patternOver underlying =>
    Scene.onScope (Scope.setColorSpace name (.patternOver .deviceGray))
    match location with
    | some location =>
      modify fun scene =>
        let former := scene.converter.formerSpaces.insert location (.patternOver underlying)
        { scene with converter := { scene.converter with formerSpaces := former } }
    | none => return
  | _ => return

/-- Converts the content of a stream and then the pattern spaces that it selected. -/
def convertOwn (convert : StreamConversion) (location : Option ObjectId) (content : Bytes) :
    Change Scene Bytes := do
  let (content, names) ← convert location content
  names.toList.forM convertPatternSpace
  return content

/-- The space that a pattern space was before the space below it became gray. -/
def formerSpace? (scene : Scene) (name : String) :
    Outcome (Option (ColorSpace Float32 Float)) := do
  if scene.converter.formerSpaces.size = 0 then return none
  return (← scene.scope.location? .colorSpace name).bind scene.converter.formerSpaces.find?

/-- The stream with its content converted under resources of its own.  Resources that are part
of its dictionary are written back to it. -/
def convertContent (convert : StreamConversion) (source : ContentStream) (content : Bytes)
    (own : Resources) : Change Job ContentStream := do
  let (content, own) ← Job.withResources own (convertOwn convert source.location content)
  let source := source.setContent content (← get).converter.options.compressStreams
  match own with
  | .direct entries => return source.setResources (.direct entries)
  | .indirect _ => return source

/-- The pattern in gray.  A cell that does not set its own colors stays as it is, and a pattern
without resources has none. -/
def convertPattern (convert : StreamConversion) (pattern : Pattern) : Change Job Pattern := do
  match pattern with
  | .tiling cell paintType =>
    if Pattern.setsColors paintType then
      let document := (← get).document
      let content ← cell.content document
      let own ← cell.resources? document
      return .tiling (← convertContent convert cell content (own.getD default)) paintType
    else return .tiling cell paintType
  | .shading entries shading location =>
    let gray ← Job.onDocument (Shading.toGray shading)
    match location with
    | some target =>
      Job.onDocument (modify fun document => document.store target gray)
      return .shading entries gray location
    | none => return .shading (entries.set "Shading" gray) gray none

/-- Converts the pattern with a name, unless the stream used it before. -/
def convertNamedPattern (convert : StreamConversion) (name : String) : Change Walk Unit := do
  let walk ← get
  if walk.patterns.contains name then return
  modify fun walk => { walk with patterns := walk.patterns.insert name }
  let pattern ← walk.scope.pattern name
  let gray ← Walk.onJob (convertPattern convert pattern)
  Walk.setResource .pattern name gray.toObject
  Walk.onJob <| Job.count fun counts =>
    { counts with patternsConverted := counts.patternsConverted + 1 }

/-- Converts the shading with a name, unless the stream used it before. -/
def convertNamedShading (name : String) : Change Walk Unit := do
  let walk ← get
  if walk.shadings.contains name then return
  modify fun walk => { walk with shadings := walk.shadings.insert name }
  let shading ← walk.scope.shading name
  let gray ← Walk.onJob (Job.onDocument (Shading.toGray shading))
  Walk.setResource .shading name gray
  Walk.onJob <| Job.count fun counts =>
    { counts with shadingsConverted := counts.shadingsConverted + 1 }

/-- The form in gray.  A form without resources is converted under those of the stream that
paints it, which then takes care of its pattern spaces. -/
def convertForm (convert : StreamConversion) (form : ContentStream) :
    Change Walk ContentStream := do
  let document := (← get).document
  let content ← form.content document
  match ← form.resources? document with
  | some own => Walk.onJob (convertContent convert form content own)
  | none =>
    let (content, names) ← Walk.onScene (convert form.location content)
    modify fun walk => { walk with patternSpaces := walk.patternSpaces.union names }
    return form.setContent content (← get).converter.options.compressStreams

/-- Converts the external object with a name. -/
def convertXObject (convert : StreamConversion) (name : String) : Change Walk Unit := do
  match ← (← get).scope.xobject name with
  | .image image =>
    match ← Walk.onJob (convertImage image) with
    | some gray =>
      Walk.setResource .xobject name gray.toObject
      Walk.onJob <| Job.count fun counts =>
        { counts with imagesConverted := counts.imagesConverted + 1 }
    | none => return
  | .form form =>
    let gray ← convertForm convert form
    Walk.setResource .xobject name gray.stream.toObject
    Walk.onJob <| Job.count fun counts =>
      { counts with formsConverted := counts.formsConverted + 1 }
  | .other _ => return

/-- Converts the external object with a name, unless the stream used it before. -/
def convertNamedXObject (convert : StreamConversion) (name : String) : Change Walk Unit := do
  if (← get).xobjects.contains name then return
  modify fun walk => { walk with xobjects := walk.xobjects.insert name }
  Walk.onJob <| Job.count fun counts =>
    { counts with xobjectsProcessed := counts.xobjectsProcessed + 1 }
  convertXObject convert name

end Conversion
end Monochrome
