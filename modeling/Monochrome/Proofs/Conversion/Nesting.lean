import Monochrome.Proofs.Conversion.Keeping
import Monochrome.Proofs.Nesting

/-!
# Streams nested in a conversion

A conversion leaves the trail as it was, whatever it converts and however it ends.  So it comes to a
stream with exactly those on the trail that enclose it.
-/

namespace Monochrome
namespace Conversion
open Change

/-- To be kept: the trail and the options of a converter. -/
def Keeping.level (trail : Trail) (options : Options) : Keeping where
  job job := job.converter.trail = trail ∧ job.converter.options = options
  resources _ := True
  painted _ := True
  place _ := True

variable {trail : Trail} {options : Options}

/-- A change of the document leaves the converter alone. -/
theorem keeps_onDocument {α : Type} (step : Change Document α) (job : Job) :
    Keeps (Keeping.level trail options).job (fun _ => True) (Job.onDocument step) job :=
  (keeps_anything step _).within (fun _ => trivial) fun _ held _ => held

/-- A change of the document and the resources leaves the converter alone. -/
theorem keeps_onScope {α : Type} (step : Change Scope α) (scene : Scene) :
    Keeps (Keeping.level trail options).scene (fun _ => True) (Scene.onScope step) scene :=
  (keeps_anything step _).within (fun _ => trivial) fun _ held _ => held

/-- The trail and the options are not touched where streams are converted. -/
theorem lawful_level : (Keeping.level trail options).Lawful where
  count change job := keeps_modify fun held => held
  settle name scene := by
    refine alike_get_bind fun _ => alike_lift_bind fun location _ => ?_
    split
    · exact keeps_pure trivial
    · refine alike_lift_bind fun space _ => ?_
      split
      · refine (keeps_onScope _ scene).bind fun _ _ _ => ?_
        cases location with
        | some location => exact keeps_modify fun held => held
        | none => exact keeps_pure trivial
      · exact keeps_pure trivial
  lookup _ _ _ _ _ _ found := 
    ⟨Scope.isReference_of_lookup? (Scope.lookup_eq_ok.1 found), fun _ _ => trivial⟩
  readShading _ _ _ _ _ read := by
    obtain ⟨entry, location, value, _, resolved, rfl⟩ := Pattern.readShading_eq_ok.1 read
    exact ⟨trivial, ⟨Document.isReference_of_resolveWithId resolved, fun _ _ => trivial⟩,
      fun _ _ => trivial⟩
  own _ _ _ _ _ _ := trivial
  noResources := trivial
  within _ _ _ _ := trivial
  setResources _ _ _ _ := trivial
  storeShading _ _ _ _ _ held := held
  setShading _ _ _ _ := trivial
  put _ _ _ _ _ _ := keeps_onScope _ _
  space _ _ := keeps_onDocument _ _

/-- A change inside a stream leaves the trail and the options as they were, if it does so there. -/
theorem keeps_inside {α : Type} {gives : α → Prop} {location : Option ObjectId}
    {step : Change Scene α} {scene : Scene}
    (keeps : ∀ inside scene, trail.enter options.maxNestingDepth location = .ok inside →
      Keeps (Keeping.level inside options).scene gives step scene) :
    Keeps (Keeping.level trail options).scene gives (Scene.inside location step) scene := by
  refine keeps_of fun held => ?_
  obtain ⟨⟨sameTrail, sameOptions⟩, _⟩ := id held
  unfold Scene.inside
  rw [sameTrail, sameOptions]
  cases entered : trail.enter options.maxNestingDepth location with
  | error fault => exact held
  | ok inside =>
      obtain ⟨_, leaves⟩ := keeps inside (Scene.inside.setTrail inside scene) entered
        ⟨⟨rfl, sameOptions⟩, trivial⟩
      have left := Trail.leave_of_enter entered
      dsimp only
      cases atStep : step (Scene.inside.setTrail inside scene) with
      | ok value after =>
          rw [atStep] at leaves
          obtain ⟨given, ⟨trailAfter, optionsAfter⟩, _⟩ := leaves
          exact ⟨given, ⟨(congrArg Trail.leave trailAfter).trans left, optionsAfter⟩, trivial⟩
      | error fault after =>
          rw [atStep] at leaves
          obtain ⟨⟨trailAfter, optionsAfter⟩, _⟩ := leaves
          exact ⟨⟨(congrArg Trail.leave trailAfter).trans left, optionsAfter⟩, trivial⟩

/-- A stream in which streams are nested is converted with the trail and the options left as they
were. -/
theorem keeps_convertStream (depth : Nat) (location : Option ObjectId) (content : Bytes)
    (scene : Scene) :
    Keeps (Keeping.level trail options).scene (fun _ => True) (convertStream depth location content)
      scene := by
  induction depth generalizing trail location content scene with
  | zero => exact alike_get_bind fun _ => keeps_throw _
  | succ depth inductionHypothesis =>
      have inside (inside : Trail) (scene : Scene) :
          Keeps (Keeping.level inside options).scene (fun _ => True)
            (Walk.through (convertOperations (convertStream depth) content)) scene :=
        alike_through (alike_convertOperations lawful_level inductionHypothesis content)
      refine (keeps_inside fun trail scene _ => inside trail scene).bind fun result _ _ => ?_
      exact (alike_onJob (lawful_level.count _)).bind fun _ _ _ => keeps_pure trivial

/-- Content is converted with the trail and the options left as they were. -/
theorem keeps_contentToGray (content : Bytes) (scene : Scene) :
    Keeps (Keeping.level trail options).scene (fun _ => True) (contentToGray content) scene :=
  alike_get_bind fun _ =>
    alike_convertOwn lawful_level (fun _ _ _ => keeps_convertStream _ _ _ _) none content scene

/-- The streams that a conversion walks through: what each of them is stored as, and its content. -/
def nesting : Nesting (Option ObjectId × Bytes) Scene (Bytes × Names) where
  location := Prod.fst
  trail scene := scene.converter.trail
  limit scene := scene.converter.options.maxNestingDepth
  enter := Scene.inside.setTrail
  walk nested stream :=
    Walk.through (convertOperations (fun location content => nested (location, content)) stream.2)
  run depth stream := convertStream depth stream.1 stream.2

/-- A conversion enters streams as its trail allows. -/
theorem lawful_nesting : nesting.Lawful where
  trail_enter _ _ := rfl
  limit_enter _ _ := rfl
  barred depth stream scene fault isBarred := by
    have barred : scene.converter.trail.enter scene.converter.options.maxNestingDepth stream.1 =
        .error fault := isBarred
    refine Fails.bind ⟨scene, ?_⟩
    unfold Scene.inside
    rw [barred]
  entered depth stream scene inside fault isEntered failed := by
    have entered : scene.converter.trail.enter scene.converter.options.maxNestingDepth stream.1 =
        .ok inside := isEntered
    obtain ⟨left, failed⟩ := failed
    have failedInside : Walk.through (convertOperations (convertStream depth) stream.2)
        (Scene.inside.setTrail inside scene) = .error fault left := failed
    refine Fails.bind ⟨Scene.inside.setTrail left.converter.trail.leave left, ?_⟩
    unfold Scene.inside
    rw [entered]
    dsimp only
    rw [failedInside]
  calls depth stream scene other reached comes := by
    have held : (Keeping.level scene.converter.trail scene.converter.options).scene reached := by
      refine comes.holds (fun index state => keeps_convertStream depth index.1 index.2 state) ?_
      intro nested alike
      exact (alike_through (alike_convertOperations lawful_level
        (fun location content scene => alike (location, content) scene) stream.2)
        ⟨⟨rfl, rfl⟩, trivial⟩).1
    obtain ⟨⟨sameTrail, sameOptions⟩, _⟩ := held
    exact ⟨sameTrail, congrArg Options.maxNestingDepth sameOptions⟩

/-- Content is converted below an exact and balanced guard. -/
theorem isExact_contentToGray (content : Bytes) (scene : Scene)
    (sound : scene.converter.trail.IsSound scene.converter.options.maxNestingDepth) :
    nesting.IsExact (none, content) scene (contentToGray content) := by
  refine lawful_nesting.isExact sound ?_ ?_
  · exact ((keeps_contentToGray content scene).outcome_eq ⟨⟨rfl, rfl⟩, trivial⟩).2.1.1
  · exact fun fault failed => fails_get_bind failed.bind

/-- A stream fails to be gone through if the walk through it does. -/
theorem fails_through {α : Type} {step : Change Walk α} {scene : Scene} {fault : Fault}
    (failed : step.Fails ⟨scene, default, {}, {}, {}, {}⟩ fault) :
    (Walk.through step).Fails scene fault := by
  obtain ⟨after, failed⟩ := failed
  refine ⟨after.toScene, ?_⟩
  unfold Walk.through
  rw [failed]

/-! ## Where a conversion comes to a form -/

section Painting

variable {convert : StreamConversion} {walk : Walk} {form : ContentStream} {content : Bytes}
variable {own : Option Resources} {fault : Fault}

/-- A form fails as its content does, which is converted under its resources or else under those of
the stream. -/
theorem fails_convertForm (isContent : form.content walk.document = .ok content)
    (isOwn : form.resources? walk.document = .ok own)
    (failed : (convert form.location content).Fails ⟨walk.toJob, own.getD walk.resources⟩ fault) :
    (convertForm convert form).Fails walk fault := by
  refine fails_get_bind (fails_lift_bind isContent (fails_lift_bind isOwn ?_))
  cases own with
  | none =>
      have failedHere : (Walk.onScene (convert form.location content)).Fails walk fault :=
        Fails.within failed
      exact failedHere.bind
  | some own =>
      have failedUnder : (Job.withResources own (convertOwn convert form.location content)).Fails
          walk.toJob fault := by
        obtain ⟨left, failedOwn⟩ : (convertOwn convert form.location content).Fails
          ⟨walk.toJob, own⟩ fault := failed.bind
        refine ⟨left.toJob, ?_⟩
        unfold Job.withResources
        rw [failedOwn]
      have failedHere : (Scene.onJob (convertContent convert form content own)).Fails walk.toScene
          fault := Fails.within failedUnder.bind
      exact Fails.within failedHere

/-- The job after an external object was counted. -/
def countingXObject (job : Job) : Job :=
  let counts := job.converter.statistics
  { job with converter := { job.converter with
      statistics := { counts with xobjectsProcessed := counts.xobjectsProcessed + 1 } } }

/-- A form that is painted for the first time fails as its content does. -/
theorem fails_convertNamedXObject {name : String} (isNew : walk.xobjects.contains name = false)
    (isForm : walk.scope.xobject name = .ok (.form form))
    (isContent : form.content walk.document = .ok content)
    (isOwn : form.resources? walk.document = .ok own)
    (failed : (convert form.location content).Fails
      ⟨countingXObject walk.toJob, own.getD walk.resources⟩ fault) :
    (convertNamedXObject convert name).Fails walk fault := by
  refine fails_get_bind ?_
  rw [if_neg (by simp [isNew])]
  refine fails_modify_bind (fails_bind rfl (fails_get_bind (fails_lift_bind isForm ?_)))
  exact Fails.bind (fails_convertForm isContent isOwn failed)

section FirstForm

variable {scene : Scene} {bytes : Bytes} {operation : Operation} {rest : List Operation}
variable {operand : Object} {name : String}
variable (read : Content.read bytes = .ok (operation :: rest))
variable (paints : Operator.ofKeyword operation.keyword = .paintXObject)
variable (isOperand : operation.operands = [operand])
variable (isName : Operands.nameOf "Do" operand = .ok name)
variable (isForm : scene.scope.xobject name = .ok (.form form))
variable (isContent : form.content scene.document = .ok content)
variable (isOwn : form.resources? scene.document = .ok own)
include read paints isOperand isName isForm isContent isOwn

/-- A stream that begins by painting a form fails as the content of the form does. -/
theorem fails_through_convertOperations
    (failed : (convert form.location content).Fails
      ⟨countingXObject scene.toJob, own.getD scene.resources⟩ fault) :
    (Walk.through (convertOperations convert bytes)).Fails scene fault := by
  have atXObjects : (convertXObjects convert operation.operands).Fails
      ⟨scene, default, {}, {}, {}, {}⟩ fault := by
    rw [isOperand]
    refine Fails.bind (fails_lift_bind isName ?_)
    exact fails_convertNamedXObject rfl isForm isContent isOwn failed
  have atOperation : (convertOperation convert operation).Fails
      ⟨scene, default, {}, {}, {}, {}⟩ fault := by
    have unchanged : (default : GraphicsState).apply scene.scope
        (Operator.ofKeyword operation.keyword) operation.operands = .ok default := by
      rw [paints]
      rfl
    refine fails_get_bind (fails_lift_bind unchanged (fails_modify_bind ?_))
    unfold convertFollowed
    rw [paints]
    exact atXObjects.bind
  refine fails_through (fails_lift_bind read (Fails.bind ?_))
  rw [List.mapM_cons]
  exact atOperation.bind

/-- A stream that begins by painting a form comes to the form, to be converted under the resources
of the form or else under those of the stream. -/
theorem comesTo_form (nested : Option ObjectId × Bytes → Change Scene (Bytes × Names))
    (location : Option ObjectId) :
    ComesTo (nesting.walk · (location, bytes)) nested scene (form.location, content)
      ⟨countingXObject scene.toJob, own.getD scene.resources⟩ :=
  fun fault left => fails_through_convertOperations read paints isOperand isName isForm isContent
    isOwn ⟨left, refusing_self fault left⟩

end FirstForm

end Painting

/-- Content that paints one external object. -/
def circleContent : Bytes :=
  Bytes.ascii "/F Do"

/-- A form that paints itself. -/
def circleForm : ContentStream :=
  ⟨some ⟨1, 0⟩, ⟨Table.ofList [(Bytes.ascii "Subtype", .named "Form")], circleContent⟩⟩

/-- A scene of a new converter in which content can paint that form. -/
def circleScene : Scene :=
  let forms := Object.dictionary (Table.ofList [(Bytes.ascii "F", .reference ⟨1, 0⟩)])
  ⟨⟨⟨Table.ofList [(⟨1, 0⟩, circleForm.stream.toObject)], Table.empty, 1⟩, {}⟩,
    .direct (Table.ofList [(Bytes.ascii "XObject", forms)])⟩

/-- The content paints the form, and nothing else. -/
theorem read_circleContent :
    ∃ operation operand, Content.read circleContent = .ok [operation] ∧
      Operator.ofKeyword operation.keyword = .paintXObject ∧ operation.operands = [operand] ∧
      Operands.nameOf "Do" operand = .ok "F" := by
  have computed : (Content.read circleContent).toOption.any (fun operations =>
      operations.length = 1 && operations.all fun operation =>
        Operator.ofKeyword operation.keyword = .paintXObject && operation.operands.length = 1 &&
          operation.operands.all fun operand =>
            (Operands.nameOf "Do" operand).toOption = some "F") = true := by
    decide +kernel
  cases read : Content.read circleContent with
  | error fault => simp [read, Except.toOption] at computed
  | ok operations =>
      simp only [read, Except.toOption, Option.any_some, Bool.and_eq_true, decide_eq_true_eq,
        List.all_eq_true] at computed
      obtain ⟨single, each⟩ := computed
      obtain ⟨operation, rfl⟩ := List.length_eq_one_iff.1 single
      obtain ⟨⟨paints, alone⟩, areNames⟩ := each operation (List.mem_singleton_self operation)
      obtain ⟨operand, isOperand⟩ := List.length_eq_one_iff.1 alone
      have named := areNames operand (by simp [isOperand])
      refine ⟨operation, operand, rfl, paints, isOperand, ?_⟩
      cases name : Operands.nameOf "Do" operand with
      | ok name => simpa [name] using named
      | error fault => simp [name] at named

/-- The name is that of the form. -/
theorem xobject_circleScene : circleScene.scope.xobject "F" = .ok (.form circleForm) :=
  rfl

/-- The form is stored as it is. -/
theorem content_circleForm : circleForm.content circleScene.document = .ok circleContent :=
  rfl

/-- The form has no resources. -/
theorem resources_circleForm : circleForm.resources? circleScene.document = .ok none :=
  rfl

/-- Where the form can be painted, it is painted. -/
theorem comesTo_circleForm {scene : Scene} (same : scene.scope = circleScene.scope)
    (nested : Option ObjectId × Bytes → Change Scene (Bytes × Names))
    (location : Option ObjectId) :
    ComesTo (nesting.walk · (location, circleContent)) nested scene
      (circleForm.location, circleContent) ⟨countingXObject scene.toJob, scene.resources⟩ := by
  obtain ⟨operation, operand, read, paints, isOperand, isName⟩ := read_circleContent
  have sameDocument : scene.document = circleScene.document := congrArg Scope.document same
  have isForm : scene.scope.xobject "F" = .ok (.form circleForm) := same ▸ xobject_circleScene
  have isContent : circleForm.content scene.document = .ok circleContent :=
    sameDocument ▸ content_circleForm
  have isOwn : circleForm.resources? scene.document = .ok none :=
    sameDocument ▸ resources_circleForm
  exact comesTo_form read paints isOperand isName isForm isContent isOwn nested location

end Conversion
end Monochrome
