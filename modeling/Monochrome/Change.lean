import Monochrome.Object.Access

/-!
# Changes

A change is a step that reads and changes a state and can fail.  What it changed before failing
stays changed.
-/

namespace Monochrome

/-- A step on a state that can fail. -/
abbrev Change (σ α : Type) :=
  EStateM Fault σ α

namespace Change

/-- The outcome of a step and the state after it. -/
def outcome (step : Change σ α) (state : σ) : Outcome α × σ :=
  match step.run state with
  | .ok value state => (.ok value, state)
  | .error fault state => (.error fault, state)

/-- The step that has the given outcome and changes nothing. -/
def ofOutcome (result : Outcome α) : Change σ α := fun state =>
  match result with
  | .ok value => .ok value state
  | .error fault => .error fault state

instance : MonadLift Outcome (EStateM Fault σ) :=
  ⟨ofOutcome⟩

/-- A step on a part of a state. -/
def within (part : σ → τ) (replace : τ → σ → σ) (step : Change τ α) : Change σ α := fun state =>
  match step (part state) with
  | .ok value changed => .ok value (replace changed state)
  | .error fault changed => .error fault (replace changed state)

/-- A step that cannot fail, on a part of a state. -/
def always (part : σ → τ) (replace : τ → σ → σ) (step : StateM τ α) : Change σ α := fun state =>
  let (value, changed) := step.run (part state)
  .ok value (replace changed state)

end Change
end Monochrome
