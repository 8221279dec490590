import Monochrome.Proofs.Conversion.Outermost
import Monochrome.Proofs.Detection.Afresh
import Monochrome.Proofs.Detection.Products

/-!
# Searching converted content

A detector that goes through the operations of a conversion finds in each slot a gray level or a
pattern, whatever became of the resources.  Gray levels are not visible, so what the detector says
is what it says of the things that are painted with.  These are not colored if each is as a
conversion leaves it, and the streams among them hold content of the same kind.
-/

namespace Monochrome

/-- Whether an ink is a gray level, if the original one has no pattern space. -/
def Ink.TurnsGray (original gray : Ink) : Prop :=
  original.space.isPattern = false → ∃ level, gray = ⟨.deviceGray, .components [level]⟩

/-- An ink that an operation of a conversion can set. -/
inductive Ink.IsLevelOrPattern : Ink → Prop
  /-- A gray level. -/
  | level (level : Float32) : IsLevelOrPattern ⟨.deviceGray, .components [level]⟩
  /-- A pattern, with or without a color under it. -/
  | pattern (space : ColorSpace Float32 Float) (name : String) (underlying : Option (List Float32)) :
      IsLevelOrPattern ⟨space, .pattern name underlying⟩

/-- Whether an operation sets a color in a slot. -/
def Operation.SetsColor (operation : Operation) (slot : Slot) : Prop :=
  Operator.ofKeyword operation.keyword ∈ [.setColor slot, .setPatternColor slot, .setGray slot,
    .setRgb slot, .setCmyk slot]

namespace GraphicsState

variable {original moved gray after : GraphicsState} {scope : Scope} {operation : Operation}

/-- The first colors are gray levels. -/
theorem turnsGray_default : (default : GraphicsState).Related Ink.TurnsGray default where
  current slot := by
    cases slot <;> exact fun _ => ⟨0.0, rfl⟩
  saved := .nil

/-- An operator that sets a slot sets it to what follows from its color. -/
theorem exists_inkAfter {slot : Slot}
    (setsSlot : (Operator.ofKeyword operation.keyword).slot? = some slot)
    (followed : gray.follow scope operation = .ok after) :
    ∃ ink, inkAfter scope (gray.ink slot) (Operator.ofKeyword operation.keyword)
      operation.operands = .ok ink ∧ after = gray.setInk slot ink := by
  cases changed : inkAfter scope (gray.ink slot) (Operator.ofKeyword operation.keyword)
      operation.operands with
  | ok ink =>
      rw [follow_eq_ok gray setsSlot changed] at followed
      exact ⟨ink, rfl, (Except.ok.inj followed).symm⟩
  | error fault =>
      unfold follow apply at followed
      cases isOperator : Operator.ofKeyword operation.keyword <;>
        simp_all [Operator.slot?, bind, Except.bind]

/-- A color that is set by a pattern name is the pattern that the last operand names. -/
theorem exists_pattern_of_patternColor {keyword : String} {operands : List Object}
    {color : Color Float32} (selected : patternColor keyword operands = .ok color) :
    ∃ name underlying, color = .pattern name underlying ∧
      operands.getLast?.bind Object.text? = some name := by
  unfold patternColor at selected
  split at selected
  · rename_i last isLast
    obtain ⟨name, named, selected⟩ := Outcome.bind_eq_ok.1 selected
    have lastName : operands.getLast?.bind Object.text? = some name := by
      simp [isLast, Operands.nameOf_eq_ok.1 named]
    split at selected
    · exact ⟨name, none, (Outcome.pure_eq_ok.1 selected).symm, lastName⟩
    · obtain ⟨values, _, selected⟩ := Outcome.bind_eq_ok.1 selected
      exact ⟨name, some values, (Outcome.pure_eq_ok.1 selected).symm, lastName⟩
  · simp [Outcome.throw_eq_ok] at selected

/-- Operands with a name among them are no color of a space that is no pattern space. -/
theorem exists_pattern_of_follow {slot : Slot} {name : Bytes}
    (isColor : Operator.ofKeyword operation.keyword = .setPatternColor slot)
    (named : .name name ∈ operation.operands)
    (followed : gray.follow scope operation = .ok after) :
    ∃ ink : Ink, ink.IsLevelOrPattern ∧ after = gray.setInk slot ink := by
  obtain ⟨ink, changed, rfl⟩ := exists_inkAfter (by rw [isColor]; rfl) followed
  refine ⟨ink, ?_, rfl⟩
  simp only [inkAfter, isColor] at changed
  split at changed
  · simp only [Outcome.bind_eq_ok, Outcome.pure_eq_ok] at changed
    obtain ⟨color, selected, rfl⟩ := changed
    obtain ⟨pattern, underlying, rfl, _⟩ := exists_pattern_of_patternColor selected
    exact .pattern _ pattern underlying
  · simp only [Outcome.bind_eq_ok, plainColor] at changed
    obtain ⟨_, ⟨values, numbers, _⟩, _⟩ := changed
    obtain ⟨_, number⟩ := Operands.exists_number_of_numbers numbers named
    cases number

/-- After an operation set a color in a slot, that slot has the color. -/
theorem isLevelOrPattern_setInk {slot : Slot} {ink : Ink}
    (isColor : Operator.ofKeyword operation.keyword = .setColor slot ∨
      Operator.ofKeyword operation.keyword = .setPatternColor slot ∨
        Operator.ofKeyword operation.keyword = .setGray slot)
    (shown : ink.IsLevelOrPattern) (other : Slot) (sets : operation.SetsColor other) :
    ((gray.setInk slot ink).ink other).IsLevelOrPattern := by
  obtain rfl : slot = other := by
    rcases isColor with isColor | isColor | isColor <;>
      simpa [Operation.SetsColor, isColor] using sets
  rwa [Conversion.ink_setInk]

/-- After an operation of a conversion was followed, each slot has a gray level, unless the original
one has a pattern space, and a color that was set is a gray level or a pattern. -/
theorem turnsGray_follow {noted : List String} (turns : original.Related Ink.TurnsGray gray)
    (step : GrayStep noted original operation moved)
    (followed : gray.follow scope operation = .ok after) :
    moved.Related Ink.TurnsGray after ∧
      ∀ slot, operation.SetsColor slot → (after.ink slot).IsLevelOrPattern := by
  have overPattern {ink shown : Ink} (pattern : ink.space.isPattern = true) : ink.TurnsGray shown :=
    fun plain => by rw [pattern] at plain; cases plain
  cases step with
  | save _ isSave =>
      obtain rfl : gray.save = after := by simpa [follow, apply, isSave] using followed
      exact ⟨turns.save, by simp [Operation.SetsColor, isSave]⟩
  | restore _ isRestore =>
      obtain rfl : gray.restore = after := by simpa [follow, apply, isRestore] using followed
      exact ⟨turns.restore, by simp [Operation.SetsColor, isRestore]⟩
  | use _ isUse =>
      rcases isUse with isUse | isUse | isUse <;>
        obtain rfl : gray = after := by simpa [follow, apply, isUse, Operator.slot?] using followed
      all_goals exact ⟨turns, by simp [Operation.SetsColor, isUse]⟩
  | image image =>
      obtain rfl : gray = after := Except.ok.inj followed
      exact ⟨turns, by simp [Operation.SetsColor, Content.imageOperation, Operator.ofKeyword]⟩
  | plainSpace _ slot ink isSpace operands plain =>
      rw [follow_deviceGray gray isSpace operands] at followed
      obtain rfl := Except.ok.inj followed
      exact ⟨turns.setInk slot fun _ => ⟨_, rfl⟩, by simp [Operation.SetsColor, isSpace]⟩
  | patternSpace _ slot ink name isSpace named ownName pattern unset =>
      obtain ⟨shown, _, rfl⟩ := exists_inkAfter (by rw [isSpace]; rfl) followed
      exact ⟨turns.setInk slot (overPattern pattern), by simp [Operation.SetsColor, isSpace]⟩
  | deviceLevel _ slot ink operand level isGray operands number plain =>
      rw [follow_deviceLevel gray isGray operands number] at followed
      obtain rfl := Except.ok.inj followed
      exact ⟨turns.setInk slot fun _ => ⟨level, rfl⟩,
        isLevelOrPattern_setInk (Or.inr (Or.inr isGray)) (.level level)⟩
  | level _ slot color operand level isColor operands number plain =>
      obtain ⟨shown, isGray⟩ := turns.current slot plain
      have space : (gray.ink slot).space = .deviceGray := congrArg Ink.space isGray
      rw [follow_level _ isColor operands number space] at followed
      obtain rfl := Except.ok.inj followed
      exact ⟨turns.setInk slot fun _ => ⟨level, rfl⟩,
        isLevelOrPattern_setInk (isColor.imp_right Or.inl) (.level level)⟩
  | pattern _ slot name isColor operands pattern =>
      have named : .name (Text.toBytes name) ∈ operation.operands := by simp [operands]
      obtain ⟨shown, isPattern, rfl⟩ := exists_pattern_of_follow isColor named followed
      exact ⟨turns.setInk slot (overPattern pattern),
        isLevelOrPattern_setInk (Or.inr (Or.inl isColor)) isPattern⟩
  | patternOver _ slot name values operand level isColor operands number pattern =>
      have named : .name (Text.toBytes name) ∈ operation.operands := by simp [operands]
      obtain ⟨shown, isPattern, rfl⟩ := exists_pattern_of_follow isColor named followed
      exact ⟨turns.setInk slot (overPattern pattern),
        isLevelOrPattern_setInk (Or.inr (Or.inl isColor)) isPattern⟩

end GraphicsState

namespace Detection
open Change

/-- Whether what one of the operations paints with is colored, as far as the graphics state follows
them. -/
def judgePaintings (detect : StreamDetection) (scope : Scope) :
    List Operation → GraphicsState → Detector → Outcome Bool
  | [], _, _ => return false
  | operation :: rest, state, detector => do
    let state ← state.follow scope operation
    if ← judgePainting detect scope operation state detector then return true
    else judgePaintings detect scope rest state detector

/-- Whether what the operations of a stream paint with is colored. -/
def judgeStream (depth : Nat) (location : Option ObjectId) (operations : List Operation)
    (scope : Scope) (detector : Detector) : Outcome Bool := do
  let trail ← detector.trail.enter detector.options.maxNestingDepth location
  judgePaintings (detectStream depth) scope operations default { detector with trail := trail }

variable {detect : StreamDetection} {scope : Scope} {scan : Scan} {operation : Operation}
variable {original moved : GraphicsState}

/-- A gray level is not visible; of a pattern, nothing else is judged. -/
theorem judgeColor_eq_judgeInk {ink : Ink} {detector : Detector}
    (nonnegative : Scalar.atMost 0.0 detector.options.colorTolerance = true)
    (shown : ink.IsLevelOrPattern) :
    judgeColor detect scope ink detector = judgeInk detect scope ink detector := by
  cases shown with
  | level level => exact congrArg Except.ok (Rgb.isColored_neutral nonnegative level)
  | pattern space name underlying => rfl

/-- An operation of a conversion is judged by what it paints with. -/
theorem judgeOperation_eq_judgePainting {detector : Detector} {state : GraphicsState}
    (nonnegative : Scalar.atMost 0.0 detector.options.colorTolerance = true)
    (shown : ∀ slot, operation.SetsColor slot → (state.ink slot).IsLevelOrPattern) :
    judgeOperation detect scope operation state detector =
      judgePainting detect scope operation state detector := by
  unfold judgeOperation judgePainting
  unfold Operation.SetsColor at shown
  cases isOperator : Operator.ofKeyword operation.keyword with
  | setColor slot | setPatternColor slot | setGray slot | setRgb slot | setCmyk slot =>
      exact judgeColor_eq_judgeInk nonnegative (shown slot (by simp [isOperator]))
  | _ => rfl

/-- The operations of a conversion are judged by what they paint with. -/
theorem judgeOperations_eq_judgePaintings {operations : List Operation} {detector : Detector}
    {gray : GraphicsState}
    (nonnegative : Scalar.atMost 0.0 detector.options.colorTolerance = true)
    (run : GrayRun original operations moved) (turns : original.Related Ink.TurnsGray gray) :
    judgeOperations detect scope operations gray detector =
      judgePaintings detect scope operations gray detector := by
  induction run generalizing gray with
  | done => rfl
  | @step _ _ _ _ operation operations first rest inductionHypothesis =>
      rw [judgeOperations, judgePaintings]
      cases followed : gray.follow scope operation with
      | error fault => rfl
      | ok state =>
          obtain ⟨turnsNext, shown⟩ := GraphicsState.turnsGray_follow turns first followed
          simp only [Limited.ok_bind, judgeOperation_eq_judgePainting nonnegative shown,
            inductionHypothesis turnsNext]

/-- Content is read before it is judged. -/
theorem exists_read_of_detectStream {depth : Nat} {location : Option ObjectId} {content : Bytes}
    {detector : Detector} {colored : Bool}
    (said : ((detectStream (depth + 1) location content scope).outcome detector).1 = .ok colored) :
    ∃ operations, Content.read content = .ok operations := by
  rw [detectStream, outcome_inside] at said
  obtain ⟨trail, _, said⟩ := Outcome.bind_eq_ok.1 said
  rw [outcome_through, outcome_lift_bind] at said
  cases read : Content.read content with
  | ok operations => exact ⟨operations, rfl⟩
  | error fault => simp [read] at said

/-- What content of a conversion is said to paint is judged as without memory. -/
theorem outcome_detectStream {depth : Nat} {location : Option ObjectId} {content : Bytes}
    {operations : List Operation} {detector : Detector}
    (nonnegative : Scalar.atMost 0.0 detector.options.colorTolerance = true)
    (read : Content.read content = .ok operations) (run : GrayRun default operations moved) :
    ((detectStream (depth + 1) location content scope).outcome detector).1 =
      judgeStream depth location operations scope detector := by
  rw [detectStream, outcome_inside, judgeStream]
  congr 1
  funext trail
  have fresh : Scan.Recalls (detectStream depth) scope
      ⟨{ detector with trail := trail }, default, Table.empty, Table.empty, Table.empty⟩ :=
    ⟨by simp, by simp, by simp⟩
  rw [outcome_through, outcome_lift_bind, read]
  exact (outcome_anyColored (restores_detectStream depth) fresh operations).trans
    (judgeOperations_eq_judgePaintings nonnegative run GraphicsState.turnsGray_default)

end Detection

end Monochrome
