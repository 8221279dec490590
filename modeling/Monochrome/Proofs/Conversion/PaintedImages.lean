import Monochrome.Proofs.Conversion.Nesting
import Monochrome.Proofs.Conversion.Outermost
import Monochrome.Proofs.Detection.Products
import Monochrome.Proofs.Mirroring
import Monochrome.Proofs.Resources.Replacing

/-!
# Images that content paints

A conversion of content converts every image that the content, or a stream that it paints with,
paints by name.  What it leaves under the name shows gray, in whatever document it is read: either
it stores a gray space, or it is the image as it was, whose space has one component.  One component
need not be gray, though: an ink or a profile can show it in another color.
-/

namespace Monochrome

namespace ImageObject

variable {document : Document} {image : Stream}

/-- Whether every pixel of an image that can be seen in a document is neutral. -/
def IsNeutral (document : Document) (image : Stream) : Prop :=
  ∀ space samples colors, colorSpace document image = .ok space →
    ImageObject.samples document image = .ok samples → samples.toRgb space = .ok colors →
      ∀ color ∈ colors.pixels, color.red = color.green ∧ color.green = color.blue

/-- An image is neutral in a space that shows gray. -/
theorem isNeutral_of_showsGray
    (shows : ∀ space, colorSpace document image = .ok space → space.ShowsGray) :
    IsNeutral document image := by
  intro space samples colors found read seen color isPixel
  have fits := Detection.components_of_samples found read
  obtain ⟨level, rfl⟩ := SampleImage.neutral_of_toRgb (shows space found) fits seen color isPixel
  exact ⟨rfl, rfl⟩

/-- Whether the samples of an image are not in a codec that a conversion does not write: the one
that is never read, one that is gray anyhow, or, with a soft mask, one of runs. -/
def Recodes (options : Options) (document : Document) (image : Stream) : Prop :=
  ∀ encoder, ImageEncoder.read document image.entries options.jpegQuality = .ok encoder →
    encoder.uses .jpx = false ∧ encoder.isGrayOnly = false ∧
      (hasSoftMask image = true → encoder.uses .runLength = false)

end ImageObject

namespace Conversion
open Change

/-! ## One image -/

section Image

variable {options : Options} {document : Document} {space partner : ColorSpace Float32 Float}
variable {image : Stream} {job after : Job}

/-- The partner that an image is given in the place of its space is a gray palette. -/
theorem eq_indexed_of_imageTask {entries : Dictionary} {leaveRuns : Bool}
    (replaced : imageTask options document entries space leaveRuns = .ok (.replaceSpace partner)) :
    ∃ last palette, partner = .indexed .deviceGray last palette := by
  unfold imageTask at replaced
  split at replaced
  · rename_i last palette
    simp only [ColorSpace.toGray, Outcome.bind_eq_ok, Outcome.pure_eq_ok] at replaced
    obtain ⟨_, ⟨gray, _, rfl⟩, same⟩ := replaced
    exact ⟨_, gray, (ImageTask.replaceSpace.inj same).symm⟩
  · split_ifs at replaced
    · cases replaced
    · obtain ⟨encoder, _, replaced⟩ := Outcome.bind_eq_ok.1 replaced
      split_ifs at replaced <;> cases replaced

/-- An image that can be encoded again is kept only if its space has one component. -/
theorem componentCount_of_keep (recodes : ImageObject.Recodes options document image)
    (kept : imageTask options document image.entries space (ImageObject.hasSoftMask image) =
      .ok .keep) : space.componentCount = 1 := by
  unfold imageTask at kept
  split at kept
  · obtain ⟨_, _, kept⟩ := Outcome.bind_eq_ok.1 kept
    cases kept
  · split_ifs at kept with single
    · exact single
    · obtain ⟨encoder, read, kept⟩ := Outcome.bind_eq_ok.1 kept
      obtain ⟨notJpx, notGrayOnly, runs⟩ := recodes encoder read
      split_ifs at kept with grayOnly hasRuns
      · simp [notGrayOnly] at grayOnly
      · simp only [Bool.and_eq_true] at hasRuns
        simp [runs hasRuns.1] at hasRuns
      · simp [notJpx] at *
      · cases kept

/-- The conversion of an image changes nothing but the image. -/
theorem eq_of_convertImage {result : Option Stream}
    (converted : convertImage image job = .ok result after) : after = job := by
  simp only [convertImage, bind_eq_ok, get_eq_ok, lift_eq_ok] at converted
  obtain ⟨_, _, ⟨rfl, rfl⟩, isMask, _, ⟨_, rfl⟩, converted⟩ := converted
  split_ifs at converted
  · exact (pure_eq_ok.1 converted).2.symm
  · simp only [bind_eq_ok, lift_eq_ok] at converted
    obtain ⟨space, _, ⟨_, rfl⟩, task, _, ⟨atTask, rfl⟩, converted⟩ := converted
    cases task with
    | keep => exact (pure_eq_ok.1 converted).2.symm
    | replaceSpace partner =>
        obtain ⟨last, palette, rfl⟩ := eq_indexed_of_imageTask atTask
        simp only [bind_eq_ok, pure_eq_ok, Job.onDocument, within_eq_ok, always_eq_ok] at converted
        obtain ⟨_, _, ⟨_, ⟨_, rfl⟩, rfl⟩, _, rfl⟩ := converted
        rfl
    | replaceSamples space encoder =>
        simp only [bind_eq_ok, lift_eq_ok, pure_eq_ok] at converted
        obtain ⟨_, _, ⟨_, rfl⟩, _, _, ⟨_, rfl⟩, ⟨_, _⟩, _, ⟨_, rfl⟩, _, rfl⟩ := converted
        rfl

/-- An image that is no stencil and can be encoded again is kept only if its space has one
component. -/
theorem componentCount_of_convertImage (kept : convertImage image job = .ok none after)
    (notMask : ImageObject.isMask job.document image = .ok false)
    (recodes : ImageObject.Recodes job.converter.options job.document image) :
    ∃ space, ImageObject.colorSpace job.document image = .ok space ∧ space.componentCount = 1 := by
  simp only [convertImage, bind_eq_ok, get_eq_ok, lift_eq_ok] at kept
  obtain ⟨_, _, ⟨rfl, rfl⟩, isMask, _, ⟨maskRead, rfl⟩, kept⟩ := kept
  rw [notMask] at maskRead
  obtain rfl := Except.ok.inj maskRead
  simp only [Bool.false_eq_true, if_false, bind_eq_ok, lift_eq_ok] at kept
  obtain ⟨space, _, ⟨found, rfl⟩, task, _, ⟨atTask, rfl⟩, kept⟩ := kept
  cases task with
  | keep => exact ⟨space, found, componentCount_of_keep recodes atTask⟩
  | replaceSpace partner =>
      obtain ⟨_, _, _, same⟩ := bind_eq_ok.1 kept
      cases same
  | replaceSamples space encoder =>
      simp only [bind_eq_ok, pure_eq_ok] at kept
      obtain ⟨_, _, _, _, _, _, ⟨_, _⟩, _, _, same, _⟩ := kept
      cases same

end Image

/-! ## Where a conversion comes to an external object -/

/-- Whether a conversion of content comes to paint an external object with a name: in a stream that
it comes to, at an operation there, and at an operand of that, in the state that the operands before
it leave.  A stream converts each name when it first paints it. -/
def Paints (content : Bytes) (scene : Scene) (convert : StreamConversion) (walk : Walk)
    (name : String) : Prop :=
  ∃ depth path stream state start operations,
    nesting.Reaches (Trail.levels scene.converter.options.maxNestingDepth) (none, content) scene
      (depth + 1) path stream state ∧
    convert = convertStream depth ∧ entering stream.1 state = .ok start ∧
    Content.read stream.2 = .ok operations ∧
    Happens (convertOperation convert)
      (fun operation before =>
        Operator.ofKeyword operation.keyword = .paintXObject ∧
        Happens (fun operand => do convertNamedXObject convert (← Operands.nameOf "Do" operand))
          (fun operand here => Operands.nameOf "Do" operand = .ok name ∧ here = walk)
          operation.operands before)
      operations start ∧
    walk.xobjects.contains name = false

section Painting

variable {content bytes : Bytes} {scene after : Scene} {convert : StreamConversion}
variable {walk next : Walk} {name : String} {fault : Fault} {image : Stream}

/-- An operation fails if an external object that it names cannot be converted. -/
theorem fails_convertOperation {operation : Operation} {before : Walk}
    (paints : Operator.ofKeyword operation.keyword = .paintXObject)
    (comes : Happens (fun operand => do convertNamedXObject convert (← Operands.nameOf "Do" operand))
      (fun operand here => Operands.nameOf "Do" operand = .ok name ∧ here = walk)
      operation.operands before)
    (failed : (convertNamedXObject convert name).Fails walk fault) :
    (convertOperation convert operation).Fails before fault := by
  have unchanged : before.state.apply before.scope (Operator.ofKeyword operation.keyword)
      operation.operands = .ok before.state := by
    rw [paints]
    rfl
  have someOperand : operation.operands.isEmpty = false := by
    cases isOperands : operation.operands with
    | nil => simp [isOperands, Happens] at comes
    | cons operand rest => rfl
  have atOperands : (convertXObjects convert operation.operands).Fails before fault := by
    unfold convertXObjects
    rw [someOperand]
    refine fails_forM_of_happens (fun operand here isHere => ?_) comes
    obtain ⟨isName, rfl⟩ := isHere
    exact fails_lift_bind isName failed
  refine fails_get_bind (fails_lift_bind unchanged (fails_modify_bind ?_))
  unfold convertFollowed
  rw [paints]
  exact atOperands.bind

/-- A conversion fails if an external object that it comes to cannot be converted. -/
theorem Paints.fails (paints : Paints content scene convert walk name)
    (failed : Change.Fails (convertNamedXObject convert name) walk fault) :
    Change.Fails (contentToGray content) scene fault := by
  obtain ⟨depth, path, stream, state, start, operations, reaches, rfl, entered, read, happens, _⟩ :=
    paints
  obtain ⟨trail, isEntered, isStart⟩ := Outcome.bind_eq_ok.1 entered
  obtain rfl := Outcome.pure_eq_ok.1 isStart
  have atOperations : (convertOperations (convertStream depth) stream.2).Fails
      ⟨Scene.inside.setTrail trail state, default, {}, {}, {}, {}⟩ fault := by
    refine fails_lift_bind read (Fails.bind (fails_mapM_of_happens ?_ happens))
    exact fun operation before here => fails_convertOperation here.1 here.2 failed
  have atStream : (nesting.run (depth + 1) stream).Fails state fault :=
    lawful_nesting.entered depth stream state trail fault isEntered (fails_through atOperations)
  exact fails_get_bind (reaches.fails lawful_nesting atStream).bind

/-- An external object that a conversion that succeeds comes to is converted. -/
theorem Paints.converts (paints : Paints content scene convert walk name)
    (done : contentToGray content scene = .ok bytes after) :
    ∃ next, convertNamedXObject convert name walk = .ok ⟨⟩ next := by
  cases atName : convertNamedXObject convert name walk with
  | ok value next => exact ⟨next, rfl⟩
  | error fault next =>
      obtain ⟨left, failed⟩ := paints.fails ⟨next, atName⟩
      rw [done] at failed
      cases failed

/-- A change of the job in a walk succeeds if it does there. -/
theorem onJob_eq_ok {α : Type} {step : Change Job α} {value : α} :
    Walk.onJob step walk = .ok value next ↔
      ∃ job, step walk.toJob = .ok value job ∧ { walk with toJob := job } = next := by
  unfold Walk.onJob Walk.onScene Scene.onJob
  constructor
  · intro done
    obtain ⟨scene, atScene, rfl⟩ := within_eq_ok.1 done
    obtain ⟨job, atJob, rfl⟩ := within_eq_ok.1 atScene
    exact ⟨job, atJob, rfl⟩
  · rintro ⟨job, done, rfl⟩
    exact within_eq_ok.2 ⟨_, within_eq_ok.2 ⟨job, done, rfl⟩, rfl⟩

/-- An image that is painted by name is what the name stands for. -/
theorem lookup?_of_xobject {scope : Scope} (isImage : scope.xobject name = .ok (.image image)) :
    ∃ location, scope.lookup? .xobject name = .ok (some ⟨location, image.toObject⟩) := by
  simp only [Scope.xobject, Scope.lookup, Outcome.bind_eq_ok] at isImage
  obtain ⟨⟨location, value⟩, ⟨found, isFound, isEntry⟩, read⟩ := isImage
  cases found with
  | none => cases isEntry
  | some entry =>
      obtain rfl := Outcome.pure_eq_ok.1 isEntry
      refine ⟨location, isFound.trans ?_⟩
      cases value <;> simp only [XObject.read, Outcome.throw_eq_ok] at read
      obtain ⟨_, _, isImage⟩ := Outcome.bind_eq_ok.1 read
      split at isImage <;> cases isImage
      rfl

/-- A value that is put in the place of an external object is what its name stands for. -/
theorem lookup?_setResource {left : Stream} {location : Option ObjectId}
    (done : Walk.setResource .xobject name left.toObject walk = .ok ⟨⟩ next)
    (found : walk.scope.lookup? .xobject name = .ok (some ⟨location, image.toObject⟩)) :
    next.scope.lookup? .xobject name = .ok (some ⟨location, left.toObject⟩) := by
  simp only [Walk.setResource, Walk.onScene, Scene.onScope, within_eq_ok, Scope.set, bind_eq_ok,
    get_eq_ok, lift_eq_ok, set_eq_ok] at done
  obtain ⟨_, ⟨changed, ⟨_, _, ⟨rfl, rfl⟩, _, _, ⟨replaced, rfl⟩, rfl⟩, rfl⟩, rfl⟩ := done
  have foundAfter := Scope.lookup?_replace replaced found rfl rfl found rfl
  rwa [if_pos rfl] at foundAfter

/-- An image that a stream paints by name for the first time is converted; what it is converted to
takes its place, if that is anything. -/
theorem lookup?_convertNamedXObject (isNew : walk.xobjects.contains name = false)
    (isImage : walk.scope.xobject name = .ok (.image image))
    (done : convertNamedXObject convert name walk = .ok ⟨⟩ next) :
    ∃ result location, convertImage image (countingXObject walk.toJob) =
        .ok result (countingXObject walk.toJob) ∧
      next.scope.lookup? .xobject name = .ok (some ⟨location, (result.getD image).toObject⟩) := by
  obtain ⟨location, found⟩ := lookup?_of_xobject isImage
  obtain ⟨_, _, ⟨rfl, rfl⟩, done⟩ := by
    simpa only [convertNamedXObject, bind_eq_ok, get_eq_ok] using done
  rw [if_neg (by simp [isNew])] at done
  -- Once the name is noted and counted, the object is converted.
  replace done : convertXObject convert name ⟨⟨countingXObject walk.toJob, walk.resources⟩,
      walk.state, walk.patterns, walk.shadings, walk.xobjects.insert name, walk.patternSpaces⟩ =
    .ok ⟨⟩ next := done
  simp only [convertXObject, bind_eq_ok, get_eq_ok, lift_eq_ok] at done
  obtain ⟨_, _, ⟨rfl, rfl⟩, xobject, _, ⟨isXObject, rfl⟩, done⟩ := done
  obtain rfl : xobject = .image image := Except.ok.inj (isXObject.symm.trans isImage)
  obtain ⟨result, _, atWalk, done⟩ := bind_eq_ok.1 done
  obtain ⟨job, converted, rfl⟩ := onJob_eq_ok.1 atWalk
  obtain rfl := eq_of_convertImage converted
  refine ⟨result, location, converted, ?_⟩
  cases result with
  | none =>
      obtain ⟨_, rfl⟩ := pure_eq_ok.1 done
      exact found
  | some gray =>
      obtain ⟨_, middle, replaced, counted⟩ := bind_eq_ok.1 done
      have foundAfter := lookup?_setResource replaced found
      obtain ⟨_, isCounted, rfl⟩ := onJob_eq_ok.1 counted
      obtain rfl := modify_eq_ok.1 isCounted
      exact foundAfter

end Painting

/-- A pixel of red. -/
def pixelImage : Stream :=
  ⟨Dictionary.ofEntries [("Subtype", .named "Image"), ("Width", .integer 1), ("Height", .integer 1),
    ("BitsPerComponent", .integer 8), ("ColorSpace", .named "DeviceRGB")], [255, 0, 0]⟩

/-- A scene of a new converter in which content can paint that pixel. -/
def pixelScene : Scene :=
  let images := Object.dictionary (Table.ofList [(Bytes.ascii "F", .reference ⟨1, 0⟩)])
  ⟨⟨⟨Table.ofList [(⟨1, 0⟩, pixelImage.toObject)], Table.empty, 1⟩, {}⟩,
    .direct (Table.ofList [(Bytes.ascii "XObject", images)])⟩

/-- Content that paints one external object is converted where that is a pixel. -/
theorem contentToGray_pixelScene :
    ∃ bytes after, contentToGray circleContent pixelScene = .ok bytes after := by
  have computed : (converted? (contentToGray circleContent pixelScene)).isSome = true := by
    decide +kernel
  cases done : contentToGray circleContent pixelScene with
  | ok bytes after => exact ⟨bytes, after, rfl⟩
  | error fault after => simp [done, converted?] at computed

/-- The conversion comes to paint the pixel. -/
theorem paints_pixelScene :
    Paints circleContent pixelScene (innerConversion pixelScene)
      ⟨Scene.inside.setTrail [none] pixelScene, default, {}, {}, {}, {}⟩ "F" := by
  obtain ⟨operation, operand, read, paints, isOperand, named⟩ := read_circleContent
  refine ⟨_, [], _, _, _, _, .first, rfl, rfl, read, Or.inl ⟨paints, ?_⟩, rfl⟩
  rw [isOperand]
  exact Or.inl ⟨named, rfl⟩

end Conversion
end Monochrome
