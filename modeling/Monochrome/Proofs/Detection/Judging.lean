import Mathlib.Tactic.SplitIfs
import Monochrome.Detection.Stream
import Monochrome.Proofs.Change
import Monochrome.Proofs.Color

/-!
# Judging what is painted with

A detector remembers its judgements and puts streams on its trail.  Neither matters to what it says:
it leaves the trail as it was, and a name is judged as if nothing had been judged before.  What it
says of the things that an operation paints with is stated here without its memory.
-/

namespace Monochrome

namespace Detection
open Change

/-- Whether a detector is left as it was, whatever is searched. -/
def StreamDetection.Restores (detect : StreamDetection) : Prop :=
  ∀ location content scope, Respects id Eq (detect location content scope)

section Restoring

variable {α : Type} {detect : StreamDetection}

/-- A search inside a stream leaves the detector as it was, if the search does. -/
theorem respects_inside {location : Option ObjectId} {step : Change Detector α}
    (restores : Respects id Eq step) : Respects id Eq (inside location step) := by
  intro detector
  unfold outcome EStateM.run inside
  cases entered : detector.trail.enter detector.options.maxNestingDepth location with
  | error fault => rfl
  | ok trail =>
      have same := restores { detector with trail := trail }
      have left := Trail.leave_of_enter entered
      unfold outcome EStateM.run at same
      cases atStep : step { detector with trail := trail } <;>
        simp only [atStep, id] at same ⊢ <;> rw [← same, left]

/-- Going through a stream leaves the detector as it was, if the steps do. -/
theorem respects_through {step : Change Scan α} (restores : Respects Scan.detector Eq step) :
    Respects id Eq (through step) := by
  intro detector
  have same := restores ⟨detector, default, Table.empty, Table.empty, Table.empty⟩
  unfold outcome EStateM.run at same ⊢
  unfold through
  cases atStep : step ⟨detector, default, Table.empty, Table.empty, Table.empty⟩ <;>
    simpa [atStep] using same

/-- A search inside a stream says what it says there, if the stream can be entered. -/
theorem outcome_inside (location : Option ObjectId) (step : Change Detector α)
    (detector : Detector) :
    ((inside location step).outcome detector).1 = (do
      let trail ← detector.trail.enter detector.options.maxNestingDepth location
      (step.outcome { detector with trail := trail }).1) := by
  unfold outcome EStateM.run inside
  cases entered : detector.trail.enter detector.options.maxNestingDepth location with
  | error fault => simp [bind, Except.bind]
  | ok trail =>
      cases atStep : step { detector with trail := trail } <;> simp [atStep, bind, Except.bind]

/-- Going through a stream says what the steps say from the beginning. -/
theorem outcome_through (step : Change Scan α) (detector : Detector) :
    ((through step).outcome detector).1 =
      (step.outcome ⟨detector, default, Table.empty, Table.empty, Table.empty⟩).1 := by
  unfold outcome EStateM.run through
  cases step ⟨detector, default, Table.empty, Table.empty, Table.empty⟩ <;> rfl

/-- A step of the detector leaves it as it was in a scan. -/
theorem respects_onDetector {step : Change Detector α} (restores : Respects id Eq step) :
    Respects Scan.detector Eq (onDetector step) :=
  restores.within fun _ _ same => same

/-- Remembering a judgement leaves the detector as it was. -/
theorem respects_once {table : Scan → Table String Bool}
    {replace : Table String Bool → Scan → Scan} {name : String} {judge : Change Scan Bool}
    (keeps : ∀ changed scan, (replace changed scan).detector = scan.detector)
    (restores : Respects Scan.detector Eq judge) :
    Respects Scan.detector Eq (once table replace name judge) := by
  unfold once
  refine respects_get.bind fun scan => ?_
  split
  · exact respects_pure _
  · refine restores.bind fun colored => ?_
    exact (respects_modify fun _ => (keeps _ _).symm).bind fun _ => respects_pure _

/-- A pattern is judged by a detector that is left as it was. -/
theorem respects_patternColored (restores : StreamDetection.Restores detect) (scope : Scope)
    (name : String) : Respects Scan.detector Eq (patternColored detect scope name) := by
  refine respects_once (fun _ _ => rfl) ((respects_lift _).bind fun pattern => ?_)
  cases pattern with
  | tiling cell paintType =>
      dsimp only
      split
      · refine (respects_lift _).bind fun content => (respects_lift _).bind fun own => ?_
        exact respects_onDetector (restores _ _ _)
      · exact respects_pure _
  | shading entries shading location => exact respects_lift _

/-- A shading is judged by a detector that is left as it was. -/
theorem respects_shadingColored (scope : Scope) (name : String) :
    Respects Scan.detector Eq (shadingColored scope name) :=
  respects_once (fun _ _ => rfl) ((respects_lift _).bind fun _ => respects_lift _)

/-- An external object is judged by a detector that is left as it was. -/
theorem respects_xobjectColored (restores : StreamDetection.Restores detect) (scope : Scope)
    (name : String) : Respects Scan.detector Eq (xobjectColored detect scope name) := by
  refine respects_once (fun _ _ => rfl) ((respects_lift _).bind fun xobject => ?_)
  cases xobject with
  | image image => exact respects_get.bind fun scan => respects_lift _
  | form form =>
      refine (respects_lift _).bind fun content => (respects_lift _).bind fun own => ?_
      exact respects_onDetector (restores _ _ _)
  | other stream => exact respects_pure _

/-- External objects are judged by a detector that is left as it was. -/
theorem respects_anyXObjectColored (restores : StreamDetection.Restores detect) (scope : Scope)
    (operands : List Object) :
    Respects Scan.detector Eq (anyXObjectColored detect scope operands) := by
  induction operands with
  | nil => exact respects_pure _
  | cons operand rest inductionHypothesis =>
      refine (respects_lift _).bind fun name => ?_
      refine (respects_xobjectColored restores scope name).bind fun colored => ?_
      cases colored
      · exact inductionHypothesis
      · exact respects_pure _

/-- Whether a color is visible does not change the detector. -/
theorem respects_isVisible (color : Rgb Float32) : Respects Scan.detector Eq (isVisible color) :=
  respects_get.bind fun _ => respects_pure _

/-- An ink is judged by a detector that is left as it was. -/
theorem respects_inkColored (restores : StreamDetection.Restores detect) (scope : Scope)
    (ink : Ink) : Respects Scan.detector Eq (inkColored detect scope ink) := by
  have pattern := respects_patternColored restores scope
  unfold inkColored
  split
  · exact (respects_lift _).bind fun color => respects_isVisible color
  · split
    · refine (respects_lift _).bind fun color => (respects_isVisible color).bind fun visible => ?_
      cases visible
      · exact pattern _
      · exact respects_pure _
    · exact pattern _

/-- An operation is judged by a detector that is left as it was. -/
theorem respects_operationColored (restores : StreamDetection.Restores detect) (scope : Scope)
    (operation : Operation) :
    Respects Scan.detector Eq (operationColored detect scope operation) := by
  refine respects_get.bind fun scan => (respects_lift _).bind fun state => ?_
  refine Respects.bind (respects_modify fun scan => ?_) fun _ => ?_
  · rfl
  unfold followedColored
  split
  iterate 4 exact respects_pure _
  iterate 5 exact respects_get.bind fun scan => respects_inkColored restores scope _
  · exact (respects_lift _).bind fun name => respects_shadingColored scope name
  · exact respects_get.bind fun scan => (respects_lift _).bind fun image => respects_lift _
  · split
    · exact respects_throw _
    · exact respects_anyXObjectColored restores scope _

/-- A search of a stream leaves the detector as it was. -/
theorem restores_detectStream (depth : Nat) : StreamDetection.Restores (detectStream depth) := by
  induction depth with
  | zero => exact fun _ _ _ => respects_get.bind fun _ => respects_throw _
  | succ depth inductionHypothesis =>
      intro location content scope
      refine respects_inside (respects_through ((respects_lift _).bind fun operations => ?_))
      induction operations with
      | nil => exact respects_pure _
      | cons operation rest laterRestores =>
          refine (respects_operationColored inductionHypothesis scope operation).bind fun colored => ?_
          cases colored
          · exact laterRestores
          · exact respects_pure _

end Restoring

section Judgement

variable (detect : StreamDetection) (scope : Scope)

/-- Whether the pattern with a name is colored. -/
def judgePattern (name : String) (detector : Detector) : Outcome Bool := do
  match ← scope.pattern name with
  | .tiling cell paintType =>
    if Pattern.setsColors paintType then
      let content ← cell.content scope.document
      let own ← cell.resources? scope.document
      let inCell := { scope with resources := own.getD default }
      ((detect cell.location content inCell).outcome detector).1
    else return false
  | .shading _ shading _ => Shading.isColored scope.document shading

/-- Whether the shading with a name is colored. -/
def judgeShading (name : String) : Outcome Bool := do
  Shading.isColored scope.document (← scope.shading name)

/-- Whether the external object with a name is colored. -/
def judgeXObject (name : String) (detector : Detector) : Outcome Bool := do
  match ← scope.xobject name with
  | .image image => imageColored detector.options scope.document image
  | .form form =>
    let content ← form.content scope.document
    let own ← form.resources? scope.document
    let inForm := { scope with resources := own.getD scope.resources }
    ((detect form.location content inForm).outcome detector).1
  | .other _ => return false

/-- Whether one of the external objects that operands name is colored. -/
def judgeXObjects : List Object → Detector → Outcome Bool
  | [], _ => return false
  | operand :: rest, detector => do
    if ← judgeXObject detect scope (← Operands.nameOf "Do" operand) detector then return true
    else judgeXObjects rest detector

/-- Whether a pattern is colored, or the color under it visible. -/
def judgeInk (ink : Ink) (detector : Detector) : Outcome Bool := do
  match ink.color with
  | .components _ => return false
  | .pattern name underlying =>
    match underlying, ink.space with
    | some values, .patternOver space =>
      if (← space.toRgb values).isColored detector.options.colorTolerance then return true
      else judgePattern detect scope name detector
    | _, _ => judgePattern detect scope name detector

/-- Whether what an operation paints with is colored. -/
def judgePainting (operation : Operation) (state : GraphicsState) (detector : Detector) :
    Outcome Bool := do
  match Operator.ofKeyword operation.keyword with
  | .setColor slot | .setPatternColor slot | .setGray slot | .setRgb slot | .setCmyk slot =>
    judgeInk detect scope (state.ink slot) detector
  | .paintShading =>
    judgeShading scope (← Operands.singleName operation.keyword operation.operands)
  | .inlineImage =>
    inlineImageColored detector.options scope (← Operands.inlineImage operation.operands)
  | .paintXObject =>
    if operation.operands.isEmpty then throw (.operands "Do" .noXObjectName)
    else judgeXObjects detect scope operation.operands detector
  | _ => return false

end Judgement

/-- Whether what a scan remembers of names is how they are judged. -/
structure Scan.Recalls (detect : StreamDetection) (scope : Scope) (scan : Scan) : Prop where
  patterns : ∀ name colored, scan.patterns.find? name = some colored →
    judgePattern detect scope name scan.detector = .ok colored
  shadings : ∀ name colored, scan.shadings.find? name = some colored →
    judgeShading scope name = .ok colored
  xobjects : ∀ name colored, scan.xobjects.find? name = some colored →
    judgeXObject detect scope name scan.detector = .ok colored

/-- Whether a scan goes on with the same detector and state, and still recalls judgements. -/
structure Scan.GoesOn (detect : StreamDetection) (scope : Scope) (scan after : Scan) : Prop where
  detector : after.detector = scan.detector
  state : after.state = scan.state
  recalls : after.Recalls detect scope

/-- Whether a step says what is judged without memory. -/
def Answers (detect : StreamDetection) (scope : Scope) {α : Type} (step : Change Scan α)
    (judgement : Detector → Outcome α) : Prop :=
  ∀ scan : Scan, scan.Recalls detect scope →
    (step.outcome scan).1 = judgement scan.detector ∧
      scan.GoesOn detect scope (step.outcome scan).2

section Answers

variable {α β : Type} {detect : StreamDetection} {scope : Scope}

/-- A scan goes on as it is. -/
theorem Scan.Recalls.goesOn {scan : Scan} (recalls : scan.Recalls detect scope) :
    scan.GoesOn detect scope scan :=
  ⟨rfl, rfl, recalls⟩

/-- A given outcome is said. -/
theorem answers_lift (result : Outcome α) :
    Answers detect scope (liftM result) fun _ => result := by
  intro scan recalls
  cases result <;> exact ⟨rfl, recalls.goesOn⟩

/-- A given value is said. -/
theorem answers_pure (value : α) : Answers detect scope (pure value) fun _ => .ok value :=
  fun _ recalls => ⟨rfl, recalls.goesOn⟩

/-- A search that leaves the detector as it was says what it says alone. -/
theorem answers_onDetector {search : Change Detector α} (restores : Respects id Eq search) :
    Answers detect scope (onDetector search) fun detector => (search.outcome detector).1 := by
  intro scan recalls
  have same := restores scan.detector
  unfold outcome EStateM.run at same ⊢
  unfold onDetector within
  cases atSearch : search scan.detector with
  | ok value detector | error value detector =>
      simp only [atSearch, id] at same ⊢
      subst same
      exact ⟨trivial, recalls.goesOn⟩

/-- Steps in sequence say what is judged in sequence. -/
theorem Answers.bind {step : Change Scan α} {next : α → Change Scan β}
    {first : Detector → Outcome α} {second : α → Detector → Outcome β}
    (answersFirst : Answers detect scope step first)
    (answersSecond : ∀ value, Answers detect scope (next value) (second value)) :
    Answers detect scope (step >>= next) fun detector =>
      first detector >>= fun value => second value detector := by
  intro scan recalls
  obtain ⟨said, goesOn⟩ := answersFirst scan recalls
  rw [outcome_bind]
  generalize step.outcome scan = result at said goesOn
  obtain ⟨answer, middle⟩ := result
  dsimp only at said goesOn ⊢
  subst said
  cases atFirst : first scan.detector with
  | error fault => exact ⟨rfl, goesOn⟩
  | ok value =>
      obtain ⟨saidNext, goesOnNext⟩ := answersSecond value middle goesOn.recalls
      rw [goesOn.detector] at saidNext
      refine ⟨saidNext, goesOnNext.detector.trans goesOn.detector,
        goesOnNext.state.trans goesOn.state, goesOnNext.recalls⟩

/-- A judgement that is remembered is said again, and one that is made is what is judged. -/
theorem answers_once {table : Scan → Table String Bool}
    {replace : Table String Bool → Scan → Scan} {name : String} {judge : Change Scan Bool}
    {judgement : Detector → Outcome Bool} (answers : Answers detect scope judge judgement)
    (knows : ∀ scan : Scan, scan.Recalls detect scope → ∀ colored,
      (table scan).find? name = some colored → judgement scan.detector = .ok colored)
    (learns : ∀ scan : Scan, scan.Recalls detect scope → ∀ colored,
      judgement scan.detector = .ok colored →
        scan.GoesOn detect scope (replace ((table scan).insert name colored) scan)) :
    Answers detect scope (once table replace name judge) judgement := by
  intro scan recalls
  unfold once
  rw [outcome_get_bind]
  cases known : (table scan).find? name with
  | some colored => exact ⟨(knows scan recalls colored known).symm, recalls.goesOn⟩
  | none =>
      obtain ⟨said, goesOn⟩ := answers scan recalls
      dsimp only
      rw [outcome_bind]
      generalize judge.outcome scan = result at said goesOn
      obtain ⟨answer, middle⟩ := result
      dsimp only at said goesOn ⊢
      cases answer with
      | error fault => exact ⟨said, goesOn⟩
      | ok colored =>
          have learned := learns middle goesOn.recalls colored (goesOn.detector ▸ said.symm)
          exact ⟨said, learned.detector.trans goesOn.detector, learned.state.trans goesOn.state,
            learned.recalls⟩

/-- A table with a new judgement recalls judgements if it did before. -/
theorem recalls_insert {table : Table String Bool} {name : String} {colored : Bool}
    {judgement : String → Outcome Bool}
    (recalls : ∀ other known, table.find? other = some known → judgement other = .ok known)
    (judged : judgement name = .ok colored) (other : String) (known : Bool)
    (found : (table.insert name colored).find? other = some known) :
    judgement other = .ok known := by
  rw [Table.find?_insert] at found
  split_ifs at found with same
  · exact same ▸ Option.some.inj found ▸ judged
  · exact recalls other known found

/-- A pattern is judged as without memory. -/
theorem answers_patternColored (restores : StreamDetection.Restores detect) (name : String) :
    Answers detect scope (patternColored detect scope name) (judgePattern detect scope name) := by
  refine answers_once ((answers_lift _).bind fun pattern => ?_)
    (fun scan recalls colored => recalls.patterns name colored)
    fun scan recalls colored judged => ⟨rfl, rfl,
      ⟨recalls_insert recalls.patterns judged, recalls.shadings, recalls.xobjects⟩⟩
  cases pattern with
  | tiling cell paintType =>
      dsimp only
      split
      · refine (answers_lift _).bind fun content => (answers_lift _).bind fun own => ?_
        exact answers_onDetector (restores _ _ _)
      · exact answers_pure _
  | shading entries shading location => exact answers_lift _

/-- A shading is judged as without memory. -/
theorem answers_shadingColored (name : String) :
    Answers detect scope (shadingColored scope name) fun _ => judgeShading scope name :=
  answers_once ((answers_lift _).bind fun _ => answers_lift _)
    (fun _ recalls colored => recalls.shadings name colored)
    fun _ recalls _ judged => ⟨rfl, rfl,
      ⟨recalls.patterns, recalls_insert recalls.shadings judged, recalls.xobjects⟩⟩

/-- An external object is judged as without memory. -/
theorem answers_xobjectColored (restores : StreamDetection.Restores detect) (name : String) :
    Answers detect scope (xobjectColored detect scope name) (judgeXObject detect scope name) := by
  refine answers_once ((answers_lift _).bind fun xobject => ?_)
    (fun scan recalls colored => recalls.xobjects name colored)
    fun scan recalls colored judged => ⟨rfl, rfl,
      ⟨recalls.patterns, recalls.shadings, recalls_insert recalls.xobjects judged⟩⟩
  cases xobject with
  | image image =>
      intro scan recalls
      dsimp only
      rw [outcome_get_bind]
      exact answers_lift _ scan recalls
  | form form =>
      refine (answers_lift _).bind fun content => (answers_lift _).bind fun own => ?_
      exact answers_onDetector (restores _ _ _)
  | other stream => exact answers_pure _

/-- External objects are judged as without memory. -/
theorem answers_anyXObjectColored (restores : StreamDetection.Restores detect)
    (operands : List Object) :
    Answers detect scope (anyXObjectColored detect scope operands)
      (judgeXObjects detect scope operands) := by
  induction operands with
  | nil => exact answers_pure _
  | cons operand rest inductionHypothesis =>
      refine (answers_lift _).bind fun name => ?_
      refine (answers_xobjectColored restores name).bind fun colored => ?_
      cases colored
      · exact inductionHypothesis
      · exact answers_pure _

/-- A color is visible to the options of the detector. -/
theorem answers_isVisible (color : Rgb Float32) :
    Answers detect scope (isVisible color) fun detector =>
      .ok (color.isColored detector.options.colorTolerance) :=
  fun _ recalls => ⟨rfl, recalls.goesOn⟩

/-- An ink that has a pattern is judged as without memory. -/
theorem answers_inkColored (restores : StreamDetection.Restores detect)
    (space : ColorSpace Float32 Float) (name : String) (underlying : Option (List Float32)) :
    Answers detect scope (inkColored detect scope ⟨space, .pattern name underlying⟩)
      (judgeInk detect scope ⟨space, .pattern name underlying⟩) := by
  have answers : Answers detect scope (patternColored detect scope name)
      (judgePattern detect scope name) := answers_patternColored restores name
  cases underlying with
  | none => exact answers
  | some values =>
      cases space with
      | patternOver space =>
          have unlessVisible (visible : Bool) :
              Answers detect scope
                (if visible then return true else patternColored detect scope name)
                fun detector => if visible then return true
                  else judgePattern detect scope name detector := by
            cases visible
            · exact answers
            · exact answers_pure true
          exact (answers_lift _).bind fun color => (answers_isVisible color).bind unlessVisible
      | _ => exact answers

end Answers

end Detection
end Monochrome
