import Mathlib.Algebra.BigOperators.Group.List.Basic
import Mathlib.Algebra.Group.InjSurj
import Mathlib.Algebra.Group.Prod
import Mathlib.Data.List.Dedup
import Monochrome.Proofs.Conversion.Using

/-!
# What a run passes

A run of a converter goes through streams: the outermost ones, and the forms and cells of patterns
that these paint with, each under a name that its stream did not use before.  Below it is told what
a walk through a stream passes: operations that set colors, inline images, and names of patterns,
shadings and external objects.  From that alone it is told which streams a run goes through, for
streams nested to any depth, and how often everything is to be counted.
-/

namespace Monochrome

/-- The elements of a list, each with the state in which a step is taken for it, as far as the steps
succeed. -/
def Change.course {σ α β : Type} (step : α → Change σ β) : List α → σ → List (α × σ)
  | [], _ => []
  | first :: rest, state =>
    (first, state) ::
      match step first state with
      | .ok _ next => course step rest next
      | .error _ _ => []

attribute [ext] Statistics

namespace Statistics

instance : Zero Statistics :=
  ⟨{}⟩

instance : Add Statistics where
  add counts others :=
    { streamsConverted := counts.streamsConverted + others.streamsConverted
      operatorsConverted := counts.operatorsConverted + others.operatorsConverted
      patternsConverted := counts.patternsConverted + others.patternsConverted
      shadingsConverted := counts.shadingsConverted + others.shadingsConverted
      xobjectsProcessed := counts.xobjectsProcessed + others.xobjectsProcessed
      imagesConverted := counts.imagesConverted + others.imagesConverted
      formsConverted := counts.formsConverted + others.formsConverted }

instance : SMul Nat Statistics where
  smul times counts :=
    { streamsConverted := times * counts.streamsConverted
      operatorsConverted := times * counts.operatorsConverted
      patternsConverted := times * counts.patternsConverted
      shadingsConverted := times * counts.shadingsConverted
      xobjectsProcessed := times * counts.xobjectsProcessed
      imagesConverted := times * counts.imagesConverted
      formsConverted := times * counts.formsConverted }

/-- The counts as a tuple, which has the laws of addition. -/
def toTuple (counts : Statistics) : Nat × Nat × Nat × Nat × Nat × Nat × Nat :=
  (counts.streamsConverted, counts.operatorsConverted, counts.patternsConverted,
    counts.shadingsConverted, counts.xobjectsProcessed, counts.imagesConverted,
    counts.formsConverted)

/-- The tuple tells all counts. -/
theorem toTuple_injective : Function.Injective toTuple := by
  intro counts others same
  simpa [toTuple, Statistics.ext_iff] using same

/-- Counts are added one by one. -/
instance : AddCommMonoid Statistics :=
  toTuple_injective.addCommMonoid toTuple rfl (fun _ _ => rfl) (fun _ _ => rfl)

end Statistics

/-- A name that a walk comes to. -/
structure Mention where
  name : String
  walk : Walk

namespace Mention

/-- The mentions of names that no mention before them has. -/
def firsts : List Mention → List Mention
  | [] => []
  | mention :: rest => mention :: (firsts rest).filter (·.name ≠ mention.name)

/-- The first mentions are of different names. -/
theorem nodup_firsts (mentions : List Mention) : ((firsts mentions).map name).Nodup := by
  induction mentions with
  | nil => exact List.nodup_nil
  | cons mention rest inductionHypothesis =>
      refine List.nodup_cons.2 ⟨?_, inductionHypothesis.sublist (List.filter_sublist.map name)⟩
      simp

/-- The first mentions are of all names that are mentioned. -/
theorem mem_firsts {mentions : List Mention} {other : String} :
    other ∈ (firsts mentions).map name ↔ other ∈ mentions.map name := by
  induction mentions with
  | nil => rfl
  | cons mention rest inductionHypothesis =>
      rw [firsts, List.map_cons, List.map_cons, List.mem_cons, List.mem_cons,
        ← inductionHypothesis]
      refine or_congr_right' fun differs => ?_
      simp only [List.mem_map, List.mem_filter]
      constructor
      · rintro ⟨first, ⟨isFirst, _⟩, rfl⟩
        exact ⟨first, isFirst, rfl⟩
      · rintro ⟨first, isFirst, rfl⟩
        exact ⟨first, ⟨isFirst, by simpa using differs⟩, rfl⟩

/-- There are as many first mentions as names that are mentioned. -/
theorem length_firsts (mentions : List Mention) :
    (firsts mentions).length = (mentions.map name).dedup.length := by
  have same : ((firsts mentions).map name).Perm (mentions.map name).dedup :=
    (List.perm_ext_iff_of_nodup (nodup_firsts mentions) (List.nodup_dedup _)).2 fun other => by
      rw [mem_firsts, List.mem_dedup]
  rw [← same.length_eq, List.length_map]

end Mention

/-- A stream that a conversion comes to, and the scene in which it is entered. -/
structure Arrival where
  location : Option ObjectId
  content : Bytes
  scene : Scene

/-- The arrival at a form or a cell.  Without resources it is entered under those that are given. -/
def ContentStream.arrival (source : ContentStream) (job : Job) (outer : Resources) :
    Outcome Arrival := do
  let content ← source.content job.document
  let own ← source.resources? job.document
  return ⟨source.location, content, ⟨job, own.getD outer⟩⟩

namespace Conversion

/-! ## Images -/

/-- Whether an image gets another color space. -/
def ImageTask.replacesSpace : ImageTask → Bool
  | replaceSpace _ => true
  | _ => false

/-- Whether an image gets other samples. -/
def ImageTask.replacesSamples : ImageTask → Bool
  | replaceSamples _ _ => true
  | _ => false

/-- Whether an image is replaced. -/
def ImageTask.replaces (task : ImageTask) : Bool :=
  task.replacesSpace || task.replacesSamples

/-- What is to be done with an inline image. -/
def inlineTask (scene : Scene) (image : Stream) : Outcome ImageTask := do
  if InlineImage.isMask image then return .keep
  let space ← InlineImage.colorSpace scene.scope image
  imageTask scene.converter.options scene.document image.entries space false

/-- What is to be done with an image object. -/
def objectTask (job : Job) (image : Stream) : Outcome ImageTask := do
  if ← ImageObject.isMask job.document image then return .keep
  let space ← ImageObject.colorSpace job.document image
  imageTask job.converter.options job.document image.entries space (ImageObject.hasSoftMask image)

/-! ## What a walk passes -/

/-- What a walk passes in a stream or in a part of it. -/
structure Passage where
  /-- The operations that set a color, or select a color space other than a pattern space. -/
  colors : Nat := 0
  /-- What is to be done with the inline images. -/
  inlineImages : List ImageTask := []
  /-- The patterns that are set in pattern spaces. -/
  patterns : List Mention := []
  /-- The shadings that are painted. -/
  shadings : List Mention := []
  /-- The external objects that are painted. -/
  xobjects : List Mention := []

namespace Passage

/-- What is passed in two parts of a stream, the second after the first. -/
instance : Append Passage where
  append first second :=
    { colors := first.colors + second.colors
      inlineImages := first.inlineImages ++ second.inlineImages
      patterns := first.patterns ++ second.patterns
      shadings := first.shadings ++ second.shadings
      xobjects := first.xobjects ++ second.xobjects }

section Walking

variable (convert : StreamConversion)

/-- The names of external objects among operands, each with the walk that comes to it after those
before were converted. -/
def xobjectsOf (operands : List Object) (walk : Walk) : List Mention :=
  (Change.course (fun operand => do convertNamedXObject convert (← Operands.nameOf "Do" operand))
    operands walk).filterMap fun (operand, here) => operand.text?.map (⟨·, here⟩)

/-- What a walk passes at an operation that its graphics state has followed. -/
def ofFollowed (operation : Operation) (walk : Walk) : Passage :=
  match Operator.ofKeyword operation.keyword with
  | .setSpace slot => { colors := if (walk.state.ink slot).space.isPattern then 0 else 1 }
  | .setColor _ | .setRgb _ | .setCmyk _ => { colors := 1 }
  | .setPatternColor slot =>
    let name? := operation.operands.getLast?.bind Object.text?
    { colors := 1
      patterns :=
        if (walk.state.ink slot).space.isPattern then name?.toList.map (⟨·, walk⟩) else [] }
  | .paintShading => { shadings := (operation.operands.filterMap Object.text?).map (⟨·, walk⟩) }
  | .inlineImage =>
    match Operands.inlineImage operation.operands with
    | .ok image => { inlineImages := (inlineTask walk.toScene image).toOption.toList }
    | .error _ => {}
  | .paintXObject => { xobjects := xobjectsOf convert operation.operands walk }
  | .saveState | .restoreState | .setGray _ | .other => {}

/-- What a walk passes at an operation. -/
def ofOperation (operation : Operation) (walk : Walk) : Passage :=
  match walk.state.follow walk.scope operation with
  | .ok state => ofFollowed convert operation { walk with state := state }
  | .error _ => {}

/-- What a walk passes at operations, one after the other. -/
def ofOperations (operations : List Operation) (walk : Walk) : Passage :=
  ((Change.course (convertOperation convert) operations walk).map fun (operation, here) =>
    ofOperation convert operation here).foldr (· ++ ·) {}

/-- What a walk passes in the stream that is entered. -/
def ofArrival (arrival : Arrival) : Outcome Passage := do
  let start ← entering arrival.location arrival.scene
  return ofOperations convert (← Content.read arrival.content) start

end Walking
end Passage

/-! ## Where a run arrives -/

/-- The arrivals at the cell of a pattern that sets its own colors. -/
def patternArrivals (pattern : Pattern) (job : Job) : List Arrival :=
  match pattern with
  | .tiling cell paintType =>
    if Pattern.setsColors paintType then (cell.arrival job default).toOption.toList else []
  | .shading _ _ _ => []

end Conversion

namespace Mention
open Conversion

/-- The arrivals at the pattern that is mentioned. -/
def patternArrivals (mention : Mention) : List Arrival :=
  match mention.walk.scope.pattern mention.name with
  | .ok pattern => Conversion.patternArrivals pattern mention.walk.toJob
  | .error _ => []

/-- The arrivals at the form that is mentioned, which was counted among the external objects. -/
def formArrivals (mention : Mention) : List Arrival :=
  match mention.walk.scope.xobject mention.name with
  | .ok (.form form) =>
    let walk := mention.walk.noteXObject mention.name
    (form.arrival walk.toJob walk.resources).toOption.toList
  | _ => []

/-- Whether a form is mentioned. -/
def isForm (mention : Mention) : Bool :=
  match mention.walk.scope.xobject mention.name with
  | .ok (.form _) => true
  | _ => false

/-- Whether an image is mentioned that is replaced. -/
def isReplacedImage (mention : Mention) : Bool :=
  match mention.walk.scope.xobject mention.name with
  | .ok (.image image) => (objectTask mention.walk.toJob image).toOption.any ImageTask.replaces
  | _ => false

end Mention

namespace Conversion

namespace Passage

/-- The arrivals at what a stream paints with, each where it is first mentioned. -/
def arrivals (passage : Passage) : List Arrival :=
  (Mention.firsts passage.patterns).flatMap Mention.patternArrivals ++
    (Mention.firsts passage.xobjects).flatMap Mention.formArrivals

/-- How a stream is to be counted, without those that it paints with. -/
def counts (passage : Passage) : Statistics where
  streamsConverted := 1
  operatorsConverted := passage.colors
  patternsConverted := (passage.patterns.map Mention.name).dedup.length
  shadingsConverted := (passage.shadings.map Mention.name).dedup.length
  xobjectsProcessed := (passage.xobjects.map Mention.name).dedup.length
  imagesConverted := passage.inlineImages.countP ImageTask.replaces +
    (Mention.firsts passage.xobjects).countP Mention.isReplacedImage
  formsConverted := (Mention.firsts passage.xobjects).countP Mention.isForm

/-- The number of inline images whose palette is replaced. -/
def inlinePalettes (passage : Passage) : Nat :=
  passage.inlineImages.countP ImageTask.replacesSpace

end Passage

/-- The passages through a stream and through all that it paints with, if streams are nested in it
to less than the given depth. -/
def passages : Nat → Arrival → List Passage
  | 0, _ => []
  | depth + 1, arrival =>
    match Passage.ofArrival (convertStream depth) arrival with
    | .ok passage => passage :: passage.arrivals.flatMap (passages depth)
    | .error _ => []

/-- The passages of the run that arrives at an outermost stream. -/
def outermostPassages (arrival : Arrival) : List Passage :=
  passages (Trail.levels arrival.scene.converter.options.maxNestingDepth) arrival

/-- The arrivals at the content of a page, whose resources have got a place of their own. -/
def pageArrivals (page : ObjectId) (job : Job) : List Arrival :=
  match job.document.pageContent page, Job.onDocument (Resources.takeFromPage page) job with
  | .ok content, .ok resources taken => [⟨none, content, ⟨taken, resources⟩⟩]
  | _, _ => []

/-- The arrivals at the content of pages, one page after the other. -/
def pagesArrivals (pages : List ObjectId) (job : Job) : List Arrival :=
  (Change.course convertPage pages job).flatMap fun (page, here) => pageArrivals page here

/-- The successful runs of a converter, with the passages through all streams that they go through. -/
inductive Run : Job → Job → List Passage → Prop
  /-- Content is converted. -/
  | content {content bytes : Bytes} {scene after : Scene}
      (done : contentToGray content scene = .ok bytes after) :
      Run scene.toJob after.toJob (outermostPassages ⟨none, content, scene⟩)
  /-- A pattern is converted. -/
  | pattern {pattern gray : Pattern} {job after : Job}
      (done : patternToGray pattern job = .ok gray after) :
      Run job after ((patternArrivals pattern job).flatMap outermostPassages)
  /-- Pages are converted. -/
  | pages {pages : List ObjectId} {statistics : Statistics} {job after : Job}
      (done : convertPages pages job = .ok statistics after) :
      Run job after ((pagesArrivals pages job).flatMap outermostPassages)

end Conversion
end Monochrome
