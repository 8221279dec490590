import Monochrome.Content.Basic
import Monochrome.GraphicsState
import Monochrome.Image.Inline
import Monochrome.Image.Object
import Monochrome.Options
import Monochrome.Resources.Paint
import Monochrome.Shading
import Monochrome.Trail

/-!
# Detecting color

A detector goes through content as a converter does, and stops at the first thing that is
colored.  What a stream paints with is judged once, where it is first used.
-/

namespace Monochrome

/-- A search for color in progress. -/
structure Detector where
  options : Options := {}
  trail : Trail := []
deriving Inhabited

namespace Detection

/-- A stream of content that is being searched, with the judgements made in it. -/
structure Scan where
  detector : Detector
  state : GraphicsState := default
  patterns : Table String Bool := Table.empty
  shadings : Table String Bool := Table.empty
  xobjects : Table String Bool := Table.empty

/-- How content is searched: its stream, its bytes, and the document with its resources. -/
abbrev StreamDetection :=
  Option ObjectId → Bytes → Scope → Change Detector Bool

/-- A search inside a stream, which is on the trail as long as the search goes on. -/
def inside (location : Option ObjectId) (step : Change Detector α) : Change Detector α :=
  fun detector =>
    match detector.trail.enter detector.options.maxNestingDepth location with
    | .error fault => .error fault detector
    | .ok trail =>
      match step { detector with trail := trail } with
      | .ok value detector => .ok value { detector with trail := detector.trail.leave }
      | .error fault detector => .error fault { detector with trail := detector.trail.leave }

/-- A step of the detector. -/
def onDetector (step : Change Detector α) : Change Scan α :=
  Change.within Scan.detector (fun detector scan => { scan with detector := detector }) step

/-- The judgement of a name, made once and then remembered in a table. -/
def once (table : Scan → Table String Bool) (replace : Table String Bool → Scan → Scan)
    (name : String) (judge : Change Scan Bool) : Change Scan Bool := do
  match (table (← get)).find? name with
  | some colored => return colored
  | none =>
    let colored ← judge
    modify fun scan => replace ((table scan).insert name colored) scan
    return colored

/-- Whether a color is visible. -/
def isVisible (color : Rgb Float32) : Change Scan Bool :=
  return color.isColored (← get).detector.options.colorTolerance

/-- Whether the pattern with a name is colored; a cell that does not set its own colors is
not. -/
def patternColored (detect : StreamDetection) (scope : Scope) (name : String) :
    Change Scan Bool :=
  once Scan.patterns (fun table scan => { scan with patterns := table }) name do
    match ← scope.pattern name with
    | .tiling cell paintType =>
      if Pattern.setsColors paintType then
        let content ← cell.content scope.document
        let own ← cell.resources? scope.document
        onDetector (detect cell.location content { scope with resources := own.getD default })
      else return false
    | .shading _ shading _ => Shading.isColored scope.document shading

/-- Whether the shading with a name is colored. -/
def shadingColored (scope : Scope) (name : String) : Change Scan Bool :=
  once Scan.shadings (fun table scan => { scan with shadings := table }) name do
    Shading.isColored scope.document (← scope.shading name)

/-- How an image is judged. -/
inductive ImageVerdict
  | gray
  | colored
  /-- By its pixels. -/
  | byPixels

/-- How an image with samples in a color space is judged. -/
def imageVerdict (options : Options) (document : Document) (entries : Dictionary)
    (space : ColorSpace Float32 Float) (trustRuns : Bool) : Outcome ImageVerdict := do
  let isIndexed := match space with
    | .indexed _ _ _ => true
    | _ => false
  if space.componentCount = 1 && !isIndexed then return .gray
  let encoder ← ImageEncoder.read document entries options.jpegQuality
  if encoder.uses .jpx then return .colored
  if encoder.isGrayOnly || (trustRuns && encoder.uses .runLength) then return .gray
  return .byPixels

/-- Whether an image is colored, given how it is judged and how its samples are read. -/
def verdictColored (options : Options) (space : ColorSpace Float32 Float)
    (verdict : ImageVerdict) (samples : Outcome (SampleImage Float32)) : Outcome Bool :=
  match verdict with
  | .gray => .ok false
  | .colored => .ok true
  | .byPixels => return (← (← samples).toRgb space).isColored options.colorTolerance

/-- Whether an image object is colored. -/
def imageColored (options : Options) (document : Document) (image : Stream) : Outcome Bool := do
  if ← ImageObject.isMask document image then return false
  let space ← ImageObject.colorSpace document image
  let verdict ← imageVerdict options document image.entries space true
  verdictColored options space verdict (ImageObject.samples document image)

/-- Whether an inline image is colored. -/
def inlineImageColored (options : Options) (scope : Scope) (image : Stream) : Outcome Bool := do
  if InlineImage.isMask image then return false
  let space ← InlineImage.colorSpace scope image
  let verdict ← imageVerdict options scope.document image.entries space false
  verdictColored options space verdict (InlineImage.samples scope image)

/-- Whether a form is colored; without resources it has those of the stream that paints it. -/
def formColored (detect : StreamDetection) (scope : Scope) (form : ContentStream) :
    Change Scan Bool := do
  let content ← form.content scope.document
  let own ← form.resources? scope.document
  onDetector (detect form.location content { scope with resources := own.getD scope.resources })

/-- Whether the external object with a name is colored. -/
def xobjectColored (detect : StreamDetection) (scope : Scope) (name : String) :
    Change Scan Bool :=
  once Scan.xobjects (fun table scan => { scan with xobjects := table }) name do
    match ← scope.xobject name with
    | .image image => imageColored (← get).detector.options scope.document image
    | .form form => formColored detect scope form
    | .other _ => return false

/-- Whether one of the external objects that operands name is colored. -/
def anyXObjectColored (detect : StreamDetection) (scope : Scope) :
    List Object → Change Scan Bool
  | [] => return false
  | operand :: rest => do
    if ← xobjectColored detect scope (← Operands.nameOf "Do" operand) then return true
    else anyXObjectColored detect scope rest

/-- Whether a color is visible: itself, the color under a pattern, or the pattern. -/
def inkColored (detect : StreamDetection) (scope : Scope) (ink : Ink) : Change Scan Bool := do
  match ink.color with
  | .components values => isVisible (← ink.space.toRgb values)
  | .pattern name underlying =>
    match underlying, ink.space with
    | some values, .patternOver space =>
      if ← isVisible (← space.toRgb values) then return true
      else patternColored detect scope name
    | _, _ => patternColored detect scope name

/-- Whether an operation paints in color or sets one, after the graphics state has followed
it. -/
def followedColored (detect : StreamDetection) (scope : Scope) (operation : Operation) :
    Change Scan Bool := do
  match Operator.ofKeyword operation.keyword with
  | .saveState | .restoreState | .setSpace _ | .other => return false
  | .setColor slot | .setPatternColor slot | .setGray slot | .setRgb slot | .setCmyk slot =>
    inkColored detect scope ((← get).state.ink slot)
  | .paintShading =>
    shadingColored scope (← Operands.singleName operation.keyword operation.operands)
  | .inlineImage =>
    inlineImageColored (← get).detector.options scope
      (← Operands.inlineImage operation.operands)
  | .paintXObject =>
    if operation.operands.isEmpty then throw (.operands "Do" .noXObjectName)
    else anyXObjectColored detect scope operation.operands

/-- Whether an operation paints in color or sets one. -/
def operationColored (detect : StreamDetection) (scope : Scope) (operation : Operation) :
    Change Scan Bool := do
  let operator := Operator.ofKeyword operation.keyword
  let state ← (← get).state.apply scope operator operation.operands
  modify fun scan => { scan with state := state }
  followedColored detect scope operation

/-- Whether one of the operations is colored; those after the first are not looked at. -/
def anyColored (detect : StreamDetection) (scope : Scope) : List Operation → Change Scan Bool
  | [] => return false
  | operation :: rest => do
    if ← operationColored detect scope operation then return true
    else anyColored detect scope rest

/-- Goes through a stream. -/
def through (step : Change Scan α) : Change Detector α := fun detector =>
  match step ⟨detector, default, Table.empty, Table.empty, Table.empty⟩ with
  | .ok value scan => .ok value scan.detector
  | .error fault scan => .error fault scan.detector

/-- Searches content in which streams are nested to less than the given depth. -/
def detectStream : Nat → StreamDetection
  | 0, _, _, _ => do throw (.nesting (← get).options.maxNestingDepth)
  | depth + 1, location, content, scope =>
    inside location <| through do
      anyColored (detectStream depth) scope (← Content.read content)

/-- Whether content, or anything that it paints, is colored. -/
def containsColor (content : Bytes) (scope : Scope) : Change Detector Bool := do
  detectStream (Trail.levels (← get).options.maxNestingDepth) none content scope

end Detection
end Monochrome
