import Monochrome.GraphicsState
import Monochrome.Names
import Monochrome.Options
import Monochrome.Trail

/-!
# Conversion

A converter goes through the content of a document.  It remembers what it counted, where it is,
and the color spaces that pattern spaces were over before they became gray, because content that
is converted later still tells colors of those.
-/

namespace Monochrome

/-- What a converter counts. -/
structure Statistics where
  /-- Content streams, forms and cells of patterns included. -/
  streamsConverted : Nat := 0
  /-- Operations that set a color or a color space. -/
  operatorsConverted : Nat := 0
  patternsConverted : Nat := 0
  shadingsConverted : Nat := 0
  /-- Names of external objects, each once in a stream. -/
  xobjectsProcessed : Nat := 0
  imagesConverted : Nat := 0
  formsConverted : Nat := 0
deriving DecidableEq, Inhabited, Repr

/-- The counts by name. -/
def Statistics.counters (counts : Statistics) : List (String × Nat) :=
  [("streamsRewritten", counts.streamsConverted), ("operatorsRewritten", counts.operatorsConverted),
    ("patternsConverted", counts.patternsConverted),
    ("shadingsConverted", counts.shadingsConverted),
    ("xobjectsProcessed", counts.xobjectsProcessed), ("imagesConverted", counts.imagesConverted),
    ("formsConverted", counts.formsConverted)]

/-- A conversion in progress. -/
structure Converter where
  options : Options := {}
  statistics : Statistics := {}
  trail : Trail := []
  /-- The pattern spaces as they were before their underlying spaces became gray. -/
  formerSpaces : Table EntryLocation (ColorSpace Float32 Float) := Table.empty
deriving Inhabited

/-- A document that is being converted. -/
structure Job where
  document : Document
  converter : Converter

/-- A document that is being converted, and the resources of the content that is read. -/
structure Scene extends Job where
  resources : Resources

/-- A stream of content that is being converted.  The names that it used are kept, so that each
is converted once. -/
structure Walk extends Scene where
  state : GraphicsState := default
  patterns : Names := {}
  shadings : Names := {}
  xobjects : Names := {}
  /-- The named pattern spaces that the stream selected. -/
  patternSpaces : Names := {}

namespace Job

/-- A change of the document. -/
def onDocument (step : Change Document α) : Change Job α :=
  Change.within document (fun document job => { job with document := document }) step

/-- Counts something. -/
def count (change : Statistics → Statistics) : Change Job Unit :=
  modify fun job =>
    { job with converter := { job.converter with statistics := change job.converter.statistics } }

/-- A change under resources of its own; the result tells what became of them.  After a fault
they are lost. -/
def withResources (resources : Resources) (step : Change Scene α) :
    Change Job (α × Resources) := fun job =>
  match step ⟨job, resources⟩ with
  | .ok value scene => .ok (value, scene.resources) scene.toJob
  | .error fault scene => .error fault scene.toJob

end Job

namespace Scene

/-- The document with the resources. -/
def scope (scene : Scene) : Scope :=
  ⟨scene.document, scene.resources⟩

/-- A change of the document or the resources. -/
def onScope (step : Change Scope α) : Change Scene α :=
  Change.within scope
    (fun scope scene => { scene with document := scope.document, resources := scope.resources })
    step

/-- A change of the job. -/
def onJob (step : Change Job α) : Change Scene α :=
  Change.within toJob (fun job scene => { scene with toJob := job }) step

/-- A change inside a stream, which is on the trail as long as the change goes on. -/
def inside (location : Option ObjectId) (step : Change Scene α) : Change Scene α := fun scene =>
  match scene.converter.trail.enter scene.converter.options.maxNestingDepth location with
  | .error fault => .error fault scene
  | .ok trail =>
    match step (setTrail trail scene) with
    | .ok value scene => .ok value (setTrail scene.converter.trail.leave scene)
    | .error fault scene => .error fault (setTrail scene.converter.trail.leave scene)
where
  /-- The scene with another trail. -/
  setTrail (trail : Trail) (scene : Scene) : Scene :=
    { scene with converter := { scene.converter with trail := trail } }

end Scene

namespace Walk

/-- A change of the scene. -/
def onScene (step : Change Scene α) : Change Walk α :=
  Change.within toScene (fun scene walk => { walk with toScene := scene }) step

/-- A change of the job. -/
def onJob (step : Change Job α) : Change Walk α :=
  onScene (Scene.onJob step)

/-- Puts a value in the place of the resource with a name. -/
def setResource (kind : ResourceKind) (name : String) (value : Object) : Change Walk Unit :=
  onScene (Scene.onScope (Scope.set kind name value))

/-- Goes through a stream.  The result tells also the named pattern spaces that it selected. -/
def through (step : Change Walk α) : Change Scene (α × Names) := fun scene =>
  match step ⟨scene, default, {}, {}, {}, {}⟩ with
  | .ok value walk => .ok (value, walk.patternSpaces) walk.toScene
  | .error fault walk => .error fault walk.toScene

end Walk
end Monochrome
