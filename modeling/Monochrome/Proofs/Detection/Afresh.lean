import Monochrome.Proofs.Conversion.Replay
import Monochrome.Proofs.Detection.Judging
import Monochrome.Proofs.Limits

/-!
# Searching afresh

The plainest search for color remembers nothing: it tests every operation where it stands, in order,
at every level of nesting, and ends with the first failure or the first thing that is colored.  A
detector, which judges a name only once in a stream, says exactly the same.
-/

namespace Monochrome

/-- A stream that is entered is one more on a trail, which had room for it. -/
theorem Trail.length_of_enter {limit : Nat} {location : Option ObjectId} {trail inside : Trail}
    (entered : trail.enter limit location = .ok inside) :
    trail.length ≤ limit ∧ inside.length = trail.length + 1 := by
  obtain ⟨_, room, rfl⟩ := Trail.enter_eq_ok.1 entered
  exact ⟨room, rfl⟩

namespace Detection
open Change

section Judgement

variable (detect : StreamDetection) (scope : Scope)

/-- Whether a color is visible: itself, the color under a pattern, or the pattern. -/
def judgeColor (ink : Ink) (detector : Detector) : Outcome Bool := do
  match ink.color with
  | .components values =>
    return (← ink.space.toRgb values).isColored detector.options.colorTolerance
  | .pattern _ _ => judgeInk detect scope ink detector

/-- Whether an operation sets a visible color or paints with something colored. -/
def judgeOperation (operation : Operation) (state : GraphicsState) (detector : Detector) :
    Outcome Bool :=
  match Operator.ofKeyword operation.keyword with
  | .setColor slot | .setPatternColor slot | .setGray slot | .setRgb slot | .setCmyk slot =>
    judgeColor detect scope (state.ink slot) detector
  | _ => judgePainting detect scope operation state detector

/-- Whether one of the operations is colored, as far as the graphics state follows them; those after
the first are not looked at. -/
def judgeOperations : List Operation → GraphicsState → Detector → Outcome Bool
  | [], _, _ => return false
  | operation :: rest, state, detector => do
    let state ← state.follow scope operation
    if ← judgeOperation detect scope operation state detector then return true
    else judgeOperations rest state detector

end Judgement

/-- Whether content, or anything that it paints, is colored, with every operation of every stream
tested afresh.  Streams are nested no deeper than a trail can be long. -/
def judgeAfresh (detector : Detector) (location : Option ObjectId) (content : Bytes)
    (scope : Scope) : Outcome Bool :=
  match _ : detector.trail.enter detector.options.maxNestingDepth location with
  | .error fault => .error fault
  | .ok trail => do
    let inside : Detector := { detector with trail := trail }
    let nested : StreamDetection := fun location content scope =>
      liftM (judgeAfresh inside location content scope)
    judgeOperations nested scope (← Content.read content) default inside
termination_by detector.options.maxNestingDepth + 1 - detector.trail.length
decreasing_by
  rename_i entered
  obtain ⟨room, longer⟩ := Trail.length_of_enter entered
  simp only [longer]
  omega

variable {detect : StreamDetection} {scope : Scope} {scan : Scan}

/-- An ink is said to be colored as without memory. -/
theorem answers_judgeColor (restores : StreamDetection.Restores detect) (ink : Ink) :
    Answers detect scope (inkColored detect scope ink) (judgeColor detect scope ink) := by
  obtain ⟨space, color⟩ := ink
  cases color with
  | components values => exact (answers_lift _).bind fun color => answers_isVisible color
  | pattern name underlying => exact answers_inkColored restores space name underlying

/-- An operation that the graphics state has followed is said to be colored as without memory. -/
theorem outcome_followedColored (restores : StreamDetection.Restores detect)
    (recalls : scan.Recalls detect scope) (operation : Operation) :
    ((followedColored detect scope operation).outcome scan).1 =
        judgeOperation detect scope operation scan.state scan.detector ∧
      scan.GoesOn detect scope ((followedColored detect scope operation).outcome scan).2 := by
  unfold followedColored judgeOperation judgePainting
  cases Operator.ofKeyword operation.keyword with
  | saveState | restoreState | setSpace | other => exact answers_pure false scan recalls
  | setColor slot | setPatternColor slot | setGray slot | setRgb slot | setCmyk slot =>
      dsimp only
      rw [outcome_get_bind]
      exact answers_judgeColor restores _ scan recalls
  | paintShading =>
      exact ((answers_lift _).bind fun name => answers_shadingColored name) scan recalls
  | inlineImage =>
      dsimp only
      rw [outcome_get_bind]
      exact ((answers_lift _).bind fun image => answers_lift _) scan recalls
  | paintXObject =>
      dsimp only
      split
      · exact answers_lift (.error _) scan recalls
      · exact answers_anyXObjectColored restores operation.operands scan recalls

/-- Operations are said to be colored as without memory. -/
theorem outcome_anyColored (restores : StreamDetection.Restores detect)
    (recalls : scan.Recalls detect scope) (operations : List Operation) :
    ((anyColored detect scope operations).outcome scan).1 =
      judgeOperations detect scope operations scan.state scan.detector := by
  induction operations generalizing scan with
  | nil => rfl
  | cons operation rest inductionHypothesis =>
      rw [anyColored, judgeOperations, operationColored, bind_assoc, outcome_get_bind, bind_assoc]
      unfold GraphicsState.follow
      rw [outcome_lift_bind]
      cases scan.state.apply scope (Operator.ofKeyword operation.keyword) operation.operands with
      | error fault => rfl
      | ok state =>
          have recallsNext : Scan.Recalls detect scope { scan with state := state } :=
            ⟨recalls.patterns, recalls.shadings, recalls.xobjects⟩
          obtain ⟨said, goesOn⟩ := outcome_followedColored restores recallsNext operation
          dsimp only
          rw [bind_assoc, outcome_bind, outcome_modify]
          dsimp only
          rw [outcome_bind]
          generalize (followedColored detect scope operation).outcome { scan with state := state } =
            result at said goesOn
          obtain ⟨answer, later⟩ := result
          obtain ⟨sameDetector, sameState, recallsLater⟩ := goesOn
          dsimp only at said sameDetector sameState recallsLater ⊢
          show _ = (do
            if ← judgeOperation detect scope operation state scan.detector then return true
            else judgeOperations detect scope rest state scan.detector)
          rw [← said]
          cases answer with
          | error fault => rfl
          | ok colored =>
              cases colored
              · exact sameState ▸ sameDetector ▸ inductionHypothesis recallsLater
              · rfl

/-! ## One search in the place of another -/

section Congruence

variable {other : StreamDetection} {detector : Detector}

/-- Whether a detector says the same of all nested streams, whichever of two searches it uses. -/
def SaysAlike (detect other : StreamDetection) (detector : Detector) : Prop :=
  ∀ location content scope,
    ((detect location content scope).outcome detector).1 =
      ((other location content scope).outcome detector).1

/-- A pattern is judged alike by searches that say the same. -/
theorem SaysAlike.judgePattern (alike : SaysAlike detect other detector) (name : String) :
    judgePattern detect scope name detector = judgePattern other scope name detector := by
  unfold Detection.judgePattern
  congr 1
  funext pattern
  cases pattern with
  | tiling cell paintType => simp only [alike _ _ _]
  | shading entries shading location => rfl

/-- An external object is judged alike by searches that say the same. -/
theorem SaysAlike.judgeXObject (alike : SaysAlike detect other detector) (name : String) :
    judgeXObject detect scope name detector = judgeXObject other scope name detector := by
  unfold Detection.judgeXObject
  congr 1
  funext xobject
  cases xobject with
  | form form => simp only [alike _ _ _]
  | image image | other stream => rfl

/-- External objects are judged alike by searches that say the same. -/
theorem SaysAlike.judgeXObjects (alike : SaysAlike detect other detector)
    (operands : List Object) :
    judgeXObjects detect scope operands detector = judgeXObjects other scope operands detector := by
  induction operands with
  | nil => rfl
  | cons operand rest inductionHypothesis =>
      simp only [Detection.judgeXObjects, alike.judgeXObject, inductionHypothesis]

/-- A color is judged alike by searches that say the same. -/
theorem SaysAlike.judgeColor (alike : SaysAlike detect other detector) (ink : Ink) :
    judgeColor detect scope ink detector = judgeColor other scope ink detector := by
  simp only [Detection.judgeColor, judgeInk, alike.judgePattern]

/-- An operation is judged alike by searches that say the same. -/
theorem SaysAlike.judgeOperation (alike : SaysAlike detect other detector)
    (operation : Operation) (state : GraphicsState) :
    judgeOperation detect scope operation state detector =
      judgeOperation other scope operation state detector := by
  simp only [Detection.judgeOperation, judgePainting, judgeInk, alike.judgeColor,
    alike.judgePattern, alike.judgeXObjects]

/-- Operations are judged alike by searches that say the same. -/
theorem SaysAlike.judgeOperations (alike : SaysAlike detect other detector)
    (operations : List Operation) (state : GraphicsState) :
    judgeOperations detect scope operations state detector =
      judgeOperations other scope operations state detector := by
  induction operations generalizing state with
  | nil => rfl
  | cons operation rest inductionHypothesis =>
      simp only [Detection.judgeOperations, alike.judgeOperation, inductionHypothesis]

end Congruence

/-! ## Nested streams -/

/-- A search that goes deep enough for the trail says of a stream what is judged afresh. -/
theorem outcome_detectStream_eq_judgeAfresh {depth : Nat} {detector : Detector}
    (deep : detector.options.maxNestingDepth + 1 ≤ depth + detector.trail.length)
    (location : Option ObjectId) (content : Bytes) (scope : Scope) :
    ((detectStream (depth + 1) location content scope).outcome detector).1 =
      judgeAfresh detector location content scope := by
  induction depth generalizing detector location content scope with
  | zero =>
      rw [detectStream, outcome_inside, judgeAfresh]
      split
      · rename_i fault entered
        rw [entered]
        rfl
      · rename_i trail entered
        have room := (Trail.length_of_enter entered).1
        omega
  | succ depth inductionHypothesis =>
      rw [detectStream, outcome_inside, judgeAfresh]
      split
      · rename_i fault entered
        rw [entered]
        rfl
      · rename_i trail entered
        have longer := (Trail.length_of_enter entered).2
        have alike : SaysAlike (detectStream (depth + 1))
            (fun location content scope =>
              liftM (judgeAfresh { detector with trail := trail } location content scope))
            { detector with trail := trail } := by
          intro location content scope
          rw [inductionHypothesis (by simp only [longer]; omega), outcome_lift]
        have fresh : Scan.Recalls (detectStream (depth + 1)) scope
            ⟨{ detector with trail := trail }, default, Table.empty, Table.empty, Table.empty⟩ :=
          ⟨by simp, by simp, by simp⟩
        rw [entered, Limited.ok_bind, outcome_through, outcome_lift_bind]
        cases Content.read content with
        | error fault => rfl
        | ok operations =>
            dsimp only
            rw [outcome_anyColored (restores_detectStream _) fresh, alike.judgeOperations]
            rfl

end Detection
end Monochrome
