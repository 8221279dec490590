import Mathlib.Data.List.Infix
import Monochrome.Conversion.Stream
import Monochrome.Detection.Stream
import Monochrome.Proofs.Change
import Monochrome.Proofs.Outcome
import Monochrome.Proofs.Text.Utf8

/-!
# Saved graphics states

What is saved is restored.  Between a save and the restore that belongs to it colors may be saved
and restored in turn, as long as each restore has a save before it and each save a restore after it;
whatever is set there, the restore brings back the colors, and the saved ones under them, that were
there before.  Operations are followed here in place, on a state that keeps what was changed when
one of them fails; none of them changes anything before it is sure to succeed.
-/

namespace Monochrome

/-- An operation with what its names are looked up in. -/
structure ScopedOperation where
  scope : Scope
  operator : Operator
  operands : List Object

namespace ScopedOperation

/-- How many of the operations save the graphics state. -/
def saves (operations : List ScopedOperation) : Nat :=
  (operations.map operator).count .saveState

/-- How many of the operations restore a graphics state. -/
def restores (operations : List ScopedOperation) : Nat :=
  (operations.map operator).count .restoreState

/-- Whether each restore has a save before it and each save a restore after it. -/
structure Balanced (operations : List ScopedOperation) : Prop where
  saved : ∀ first ∈ operations.inits, restores first ≤ saves first
  restored : ∀ last ∈ operations.tails, saves last ≤ restores last

variable {operations : List ScopedOperation}

/-- As many states are saved as are restored. -/
theorem Balanced.saves_eq (balanced : Balanced operations) :
    saves operations = restores operations :=
  Nat.le_antisymm (balanced.restored _ ((List.mem_tails _ _).2 (List.suffix_refl _)))
    (balanced.saved _ ((List.mem_inits _ _).2 (List.prefix_refl _)))

/-- The first operation is counted with the others. -/
theorem saves_cons (operation : ScopedOperation) (operations : List ScopedOperation) :
    saves (operation :: operations) = saves [operation] + saves operations := by
  simp [saves, List.count_cons, Nat.add_comm]

/-- The first operation is counted with the others. -/
theorem restores_cons (operation : ScopedOperation) (operations : List ScopedOperation) :
    restores (operation :: operations) = restores [operation] + restores operations := by
  simp [restores, List.count_cons, Nat.add_comm]

end ScopedOperation

namespace GraphicsState
open Change ScopedOperation

variable {state after : GraphicsState}

/-- Sets a slot to a color of a device space. -/
def performDevice (slot : Slot) (space : ColorSpace Float32 Float) (keyword : String)
    (operands : List Object) : Change GraphicsState Unit := do
  Operands.expectCount keyword operands space.componentCount
  let values ← Operands.numbers keyword operands
  let color ← space.makeColor values
  modify fun state => state.setInk slot ⟨space, color⟩

/-- Sets the color of a slot, in the space that it has. -/
def performColor (slot : Slot) (color : ColorSpace Float32 Float → Outcome (Color Float32)) :
    Change GraphicsState Unit := do
  let chosen ← color ((← get).ink slot).space
  modify fun state => state.setInk slot { state.ink slot with color := chosen }

/-- Follows an operation in place. -/
def perform (operation : ScopedOperation) : Change GraphicsState Unit := do
  let keyword := operation.operator.keyword?.getD ""
  match operation.operator with
  | .saveState => modify save
  | .restoreState => modify restore
  | .setSpace slot =>
    let space ← namedSpace operation.scope keyword operation.operands
    modify fun state => state.setInk slot (.initial space)
  | .setColor slot =>
    performColor slot fun space => plainColor space keyword operation.operands
  | .setPatternColor slot =>
    performColor slot fun space =>
      if space.isPattern then patternColor keyword operation.operands
      else plainColor space keyword operation.operands
  | .setGray slot => performDevice slot .deviceGray keyword operation.operands
  | .setRgb slot => performDevice slot .deviceRgb keyword operation.operands
  | .setCmyk slot => performDevice slot .deviceCmyk keyword operation.operands
  | .paintShading | .inlineImage | .paintXObject | .other => return

/-- A slot is set to a color of a device space once that is sure to be one. -/
theorem outcome_performDevice (slot : Slot) (space : ColorSpace Float32 Float) (keyword : String)
    (operands : List Object) :
    (performDevice slot space keyword operands).outcome state =
      match deviceInk space keyword operands with
      | .ok ink => (.ok (), state.setInk slot ink)
      | .error fault => (.error fault, state) := by
  unfold performDevice deviceInk plainColor
  rw [outcome_lift_bind]
  cases Operands.expectCount keyword operands space.componentCount with
  | error fault => rfl
  | ok =>
      simp only [outcome_lift_bind]
      cases Operands.numbers keyword operands with
      | error fault => rfl
      | ok values =>
          simp only [bind, Except.bind]
          cases space.makeColor values <;> rfl

/-- The color of a slot is set once it is sure to be one of its space. -/
theorem outcome_performColor (slot : Slot)
    (color : ColorSpace Float32 Float → Outcome (Color Float32)) :
    (performColor slot color).outcome state =
      match color (state.ink slot).space with
      | .ok chosen => (.ok (), state.setInk slot { state.ink slot with color := chosen })
      | .error fault => (.error fault, state) := by
  unfold performColor
  rw [outcome_get_bind, outcome_lift_bind]
  cases color (state.ink slot).space <;> rfl

/-- An operation that is followed in place replaces the state by what it makes of it. -/
theorem outcome_perform (operation : ScopedOperation) (state : GraphicsState) :
    (perform operation).outcome state =
      match state.apply operation.scope operation.operator operation.operands with
      | .ok after => (.ok (), after)
      | .error fault => (.error fault, state) := by
  obtain ⟨scope, operator, operands⟩ := operation
  cases operator with
  | setSpace slot =>
      simp only [perform, apply, Operator.slot?, inkAfter, outcome_lift_bind]
      cases namedSpace scope _ operands <;> rfl
  | setColor slot =>
      simp only [perform, apply, Operator.slot?, inkAfter, outcome_performColor]
      cases plainColor (state.ink slot).space _ operands <;> rfl
  | setPatternColor slot =>
      cases isPattern : (state.ink slot).space.isPattern with
      | true =>
          simp only [perform, apply, Operator.slot?, inkAfter, outcome_performColor, isPattern,
            if_true]
          cases patternColor _ operands <;> rfl
      | false =>
          simp only [perform, apply, Operator.slot?, inkAfter, outcome_performColor, isPattern,
            Bool.false_eq_true, if_false]
          cases plainColor (state.ink slot).space _ operands <;> rfl
  | setGray slot =>
      simp only [perform, apply, Operator.slot?, inkAfter, outcome_performDevice]
      cases deviceInk .deviceGray _ operands <;> rfl
  | setRgb slot =>
      simp only [perform, apply, Operator.slot?, inkAfter, outcome_performDevice]
      cases deviceInk .deviceRgb _ operands <;> rfl
  | setCmyk slot =>
      simp only [perform, apply, Operator.slot?, inkAfter, outcome_performDevice]
      cases deviceInk .deviceCmyk _ operands <;> rfl
  | _ => rfl

/-- An ink that is set leaves the other slot. -/
theorem ink_setInk_of_ne (state : GraphicsState) {slot other : Slot} (isOther : other ≠ slot)
    (ink : Ink) : (state.setInk slot ink).ink other = state.ink other := by
  cases slot <;> cases other <;> first | rfl | exact absurd rfl isOther

end GraphicsState

namespace ScopedOperation

variable {state after : GraphicsState} {operation : ScopedOperation}
variable {operations : List ScopedOperation}

/-- The state after an operation. -/
def follow (state : GraphicsState) (operation : ScopedOperation) : Outcome GraphicsState :=
  state.apply operation.scope operation.operator operation.operands

/-- How an operation that succeeds moves a state. -/
inductive Moves (operation : ScopedOperation) (state : GraphicsState) : GraphicsState → Prop
  /-- The current colors are saved. -/
  | save (isSave : operation.operator = .saveState) : Moves operation state state.save
  /-- The colors that were saved last are restored, if there are some. -/
  | restore (isRestore : operation.operator = .restoreState) : Moves operation state state.restore
  /-- One slot is set. -/
  | set (slot : Slot) (ink : Ink) (setsSlot : operation.operator.slot? = some slot)
      (sets : GraphicsState.inkAfter operation.scope (state.ink slot) operation.operator
        operation.operands = .ok ink) :
      Moves operation state (state.setInk slot ink)
  /-- Nothing is changed. -/
  | stay (isNoSave : operation.operator ≠ .saveState)
      (isNoRestore : operation.operator ≠ .restoreState) (setsNoSlot : operation.operator.slot? = none) :
      Moves operation state state

/-- An operation that succeeds moves the state in one of four ways. -/
theorem moves_of_follow (followed : follow state operation = .ok after) :
    Moves operation state after := by
  obtain ⟨scope, operator, operands⟩ := operation
  unfold follow GraphicsState.apply at followed
  cases operator with
  | saveState =>
      obtain rfl := Except.ok.inj followed
      exact .save rfl
  | restoreState =>
      obtain rfl := Except.ok.inj followed
      exact .restore rfl
  | setSpace slot | setColor slot | setPatternColor slot | setGray slot | setRgb slot | setCmyk slot =>
      simp only [Operator.slot?, Outcome.bind_eq_ok, Outcome.pure_eq_ok] at followed
      obtain ⟨ink, sets, rfl⟩ := followed
      exact .set slot ink rfl sets
  | paintShading | inlineImage | paintXObject | other =>
      obtain rfl := Except.ok.inj followed
      exact .stay (by simp) (by simp) rfl

/-- An operator of a slot is none that sets no slot. -/
theorem operator_ne {slot : Slot} (setsSlot : operation.operator.slot? = some slot)
    {operator : Operator} (setsNone : operator.slot? = none) : operation.operator ≠ operator := by
  intro same
  rw [same, setsNone] at setsSlot
  cases setsSlot

/-- An operator of a slot leaves the other slot, and what is saved. -/
theorem keeps_of_follow {slot : Slot} (setsSlot : operation.operator.slot? = some slot)
    (followed : follow state operation = .ok after) :
    after.saved = state.saved ∧ ∀ other ≠ slot, after.ink other = state.ink other := by
  cases moves_of_follow followed with
  | save isSave => exact absurd isSave (operator_ne setsSlot rfl)
  | restore isRestore => exact absurd isRestore (operator_ne setsSlot rfl)
  | set changed ink setsChanged =>
      obtain rfl : changed = slot := Option.some.inj (setsChanged.symm.trans setsSlot)
      exact ⟨rfl, fun other isOther => GraphicsState.ink_setInk_of_ne state isOther ink⟩
  | stay => exact ⟨rfl, fun _ _ => rfl⟩

/-- An operation that saves puts a state above the others, one that restores takes one away, and
any other leaves them. -/
theorem exists_saved_of_follow {above below : List Inks} (saved : state.saved = above ++ below)
    (enough : restores [operation] ≤ above.length + saves [operation])
    (followed : follow state operation = .ok after) :
    ∃ left, after.saved = left ++ below ∧
      left.length + restores [operation] = above.length + saves [operation] := by
  cases moves_of_follow followed with
  | save isSave =>
      exact ⟨state.current :: above, congrArg (state.current :: ·) saved, by
        simp [restores, saves, isSave]⟩
  | restore isRestore =>
      cases above with
      | nil => simp [restores, saves, isRestore] at enough
      | cons last others =>
          have restored : state.restore = ⟨last, others ++ below⟩ := by
            simp [GraphicsState.restore, saved]
          rw [restored]
          exact ⟨others, rfl, by simp [restores, saves, isRestore]⟩
  | set slot ink setsSlot =>
      have isNoSave : operation.operator ≠ .saveState := operator_ne setsSlot rfl
      have isNoRestore : operation.operator ≠ .restoreState := operator_ne setsSlot rfl
      exact ⟨above, saved, by simp [restores, saves, isNoSave, isNoRestore]⟩
  | stay isNoSave isNoRestore =>
      exact ⟨above, saved, by simp [restores, saves, isNoSave, isNoRestore]⟩

/-- After operations, the states that they have saved and not restored are saved above those that
were there before, if no more were restored at any time than were saved. -/
theorem exists_saved_of_foldlM {above below : List Inks} (saved : state.saved = above ++ below)
    (enough : ∀ first ∈ operations.inits, restores first ≤ above.length + saves first)
    (done : operations.foldlM follow state = .ok after) :
    ∃ left, after.saved = left ++ below ∧
      left.length + restores operations = above.length + saves operations := by
  induction operations generalizing state above with
  | nil =>
      obtain rfl := Outcome.pure_eq_ok.1 done
      exact ⟨above, saved, rfl⟩
  | cons operation rest inductionHypothesis =>
      rw [List.foldlM_cons, Outcome.bind_eq_ok] at done
      obtain ⟨middle, followed, done⟩ := done
      obtain ⟨between, savedBetween, atFirst⟩ :=
        exists_saved_of_follow saved (enough _ (by simp)) followed
      have enoughBetween : ∀ first ∈ rest.inits, restores first ≤ between.length + saves first := by
        intro first isFirst
        have counted := enough (operation :: first) (by simpa using isFirst)
        rw [restores_cons, saves_cons] at counted
        omega
      obtain ⟨left, savedLeft, atRest⟩ := inductionHypothesis savedBetween enoughBetween done
      refine ⟨left, savedLeft, ?_⟩
      rw [restores_cons, saves_cons]
      omega

/-- What is saved first and restored last is what it was, if what is between is balanced. -/
theorem Balanced.eq_of_foldlM (balanced : Balanced operations) {first last : ScopedOperation}
    (isSave : first.operator = .saveState) (isRestore : last.operator = .restoreState)
    (done : (first :: operations ++ [last]).foldlM follow state = .ok after) :
    after = state := by
  have saves : follow state first = .ok state.save := by
    rw [follow, isSave]
    rfl
  rw [List.cons_append, List.foldlM_cons, saves] at done
  have done : (operations ++ [last]).foldlM follow state.save = .ok after := done
  rw [List.foldlM_append, Outcome.bind_eq_ok] at done
  obtain ⟨before, between, done⟩ := done
  have savedFirst : state.save.saved = [] ++ state.current :: state.saved := rfl
  obtain ⟨left, saved, counted⟩ :=
    exists_saved_of_foldlM savedFirst (by simpa using balanced.saved) between
  obtain rfl : left = [] := by
    rw [balanced.saves_eq] at counted
    exact List.length_eq_zero_iff.1 (by simpa using counted)
  have restores : follow before last = .ok state := by
    rw [follow, isRestore]
    show Except.ok before.restore = _
    rw [GraphicsState.restore, saved]
    rfl
  rw [List.foldlM_cons, restores] at done
  exact (Outcome.pure_eq_ok.1 done).symm

end ScopedOperation

/-- A conversion of content stays where it is at an operation that its graphics state cannot
follow. -/
theorem Conversion.outcome_convertOperation_of_fault (convert : StreamConversion) {walk : Walk}
    {operation : Operation} {fault : Fault}
    (failed : walk.state.apply walk.scope (Operator.ofKeyword operation.keyword)
      operation.operands = .error fault) :
    (convertOperation convert operation).outcome walk = (.error fault, walk) := by
  unfold convertOperation
  rw [Change.outcome_get_bind, Change.outcome_lift_bind, failed]

/-- A search of content stays where it is at an operation that its graphics state cannot follow. -/
theorem Detection.outcome_operationColored_of_fault (detect : StreamDetection) {scope : Scope}
    {scan : Scan} {operation : Operation} {fault : Fault}
    (failed : scan.state.apply scope (Operator.ofKeyword operation.keyword)
      operation.operands = .error fault) :
    (operationColored detect scope operation).outcome scan = (.error fault, scan) := by
  unfold operationColored
  rw [Change.outcome_get_bind, Change.outcome_lift_bind, failed]

namespace GraphicsState
open Change ScopedOperation

/-- What is saved and restored around balanced operations is what it was.  Where nothing is saved
nothing is restored, an operator of one slot leaves the other one, and an operation that fails
leaves all, followed in place as in a conversion or a search of content. -/
theorem restores_and_keeps (state : GraphicsState) :
    (∀ (first last : ScopedOperation) (operations : List ScopedOperation) (after : GraphicsState),
      first.operator = .saveState → last.operator = .restoreState → Balanced operations →
      (first :: operations ++ [last]).foldlM ScopedOperation.follow state = .ok after →
      after = state) ∧
    (∀ operation : ScopedOperation, operation.operator = .restoreState → state.saved = [] →
      ScopedOperation.follow state operation = .ok state) ∧
    (∀ (operation : ScopedOperation) (slot : Slot) (after : GraphicsState),
      operation.operator.slot? = some slot → ScopedOperation.follow state operation = .ok after →
      after.saved = state.saved ∧ ∀ other ≠ slot, after.ink other = state.ink other) ∧
    (∀ operation : ScopedOperation,
      (∀ after, ScopedOperation.follow state operation = .ok after →
        (perform operation).outcome state = (.ok (), after)) ∧
      ∀ fault, ScopedOperation.follow state operation = .error fault →
        (perform operation).outcome state = (.error fault, state)) ∧
    ∀ (operation : Operation) (scope : Scope) (fault : Fault),
      state.apply scope (Operator.ofKeyword operation.keyword) operation.operands =
        .error fault →
      (∀ (convert : Conversion.StreamConversion) (walk : Walk),
        walk.state = state → walk.scope = scope →
        (Conversion.convertOperation convert operation).outcome walk = (.error fault, walk)) ∧
      ∀ (detect : Detection.StreamDetection) (scan : Detection.Scan), scan.state = state →
        (Detection.operationColored detect scope operation).outcome scan = (.error fault, scan) := by
  refine ⟨?between, ?empty, ?slots, ?inPlace, ?inContent⟩
  case between =>
    intro first last operations after isSave isRestore balanced done
    exact balanced.eq_of_foldlM isSave isRestore done
  case empty =>
    intro operation isRestore nothing
    rw [ScopedOperation.follow, isRestore]
    show Except.ok state.restore = _
    rw [restore, nothing]
  case slots =>
    intro operation slot after setsSlot followed
    exact keeps_of_follow setsSlot followed
  case inPlace =>
    intro operation
    constructor
    · intro after followed
      rw [outcome_perform, show state.apply _ _ _ = _ from followed]
    · intro fault failed
      rw [outcome_perform, show state.apply _ _ _ = _ from failed]
  case inContent =>
    intro operation scope fault failed
    constructor
    · rintro convert walk rfl rfl
      exact Conversion.outcome_convertOperation_of_fault convert failed
    · rintro detect scan rfl
      exact Detection.outcome_operationColored_of_fault detect failed

/-- An operator with its operands, where no names are known. -/
def withoutNames (operator : Operator) (operands : List Object) : ScopedOperation :=
  ⟨⟨default, default⟩, operator, operands⟩

/-- One slot is set, colors are saved, the other slot is set, and the colors are restored. -/
def nestedSave : List ScopedOperation :=
  [withoutNames (.setSpace .fill) [.named "DeviceRGB"], withoutNames .saveState [],
    withoutNames (.setSpace .stroke) [.named "DeviceCMYK"], withoutNames .restoreState []]

/-- The saves and restores among the operations belong together. -/
theorem balanced_nestedSave : Balanced nestedSave :=
  ⟨by decide, by decide⟩

/-- A device space is selected by its name. -/
theorem follow_withoutNames_setSpace (state : GraphicsState) (slot : Slot) (name : String)
    {space : ColorSpace Float32 Float} (isAscii : Bytes.ascii name = Text.toBytes name)
    (known : ColorSpace.ofName? name = some space) :
    ScopedOperation.follow state (withoutNames (.setSpace slot) [.named name]) =
      .ok (state.setInk slot (.initial space)) := by
  have single (keyword : String) : Operands.singleName keyword [.named name] = .ok name :=
    Operands.singleName_eq_ok.2 ⟨_, rfl, by
      rw [Object.named, Object.text?, Text.ofBytes_ascii isAscii]⟩
  simp [ScopedOperation.follow, withoutNames, apply, Operator.slot?, inkAfter, namedSpace, single,
    known, bind, Except.bind, pure, Except.pure]

/-- After the colors were set in turn the first ones are back; nothing is restored where nothing is
saved, the color of lines stays when that of areas is set, and a name that is missing changes
nothing. -/
theorem restores_and_keeps_nested :
    ((withoutNames .saveState [] :: nestedSave ++ [withoutNames .restoreState []]).foldlM
      ScopedOperation.follow default = .ok default) ∧
    ScopedOperation.follow default (withoutNames .restoreState []) = .ok default ∧
    ((default : GraphicsState).setInk .fill (.initial .deviceRgb)).ink .stroke = default ∧
    (perform (withoutNames (.setSpace .fill) [])).outcome default =
      (.error (.operands "cs" (.count 1 0)), default) := by
  obtain ⟨between, empty, slots, inPlace, -⟩ := restores_and_keeps default
  have setFill (state : GraphicsState) :=
    follow_withoutNames_setSpace state .fill "DeviceRGB" (by decide) rfl
  have setStroke (state : GraphicsState) :=
    follow_withoutNames_setSpace state .stroke "DeviceCMYK" (by decide) rfl
  have saves (state : GraphicsState) :
      ScopedOperation.follow state (withoutNames .saveState []) = .ok state.save := rfl
  have restores (state : GraphicsState) :
      ScopedOperation.follow state (withoutNames .restoreState []) = .ok state.restore := rfl
  refine ⟨?_, empty _ rfl rfl, (slots _ .fill _ rfl (setFill default)).2 .stroke (by decide),
    (inPlace _).2 _ rfl⟩
  obtain ⟨after, done⟩ : ∃ after, (withoutNames .saveState [] :: nestedSave ++
      [withoutNames .restoreState []]).foldlM ScopedOperation.follow default = .ok after := by
    simp [nestedSave, setFill, setStroke, saves, restores, bind, Except.bind, pure, Except.pure]
  rw [done, between _ _ _ _ rfl rfl balanced_nestedSave done]

end GraphicsState
end Monochrome
