import Monochrome.Proofs.Change

/-!
# Steps that cannot be told apart

Two steps are alike in a state if they come to the same there, provided that something holds of the
state, which then holds afterwards as well, even if the steps fail.  Two steps that differ only in
states in which it does not hold are alike, and so is what is made of them.  A step that is alike to
itself keeps what holds.
-/

namespace Monochrome
namespace Change

variable {σ τ α β : Type}

/-- Whether something holds of the state that a step leaves, and something of its value if it
succeeds. -/
def Leaves (holds : σ → Prop) (gives : α → Prop) : EStateM.Result Fault σ α → Prop
  | .ok value after => gives value ∧ holds after
  | .error _ after => holds after

/-- Whether two steps come to the same from a state of which something holds, and it holds then
still. -/
def Alike (holds : σ → Prop) (gives : α → Prop) (first second : Change σ α) (state : σ) : Prop :=
  holds state → first state = second state ∧ Leaves holds gives (first state)

/-- Whether a step keeps what holds of a state. -/
abbrev Keeps (holds : σ → Prop) (gives : α → Prop) (step : Change σ α) (state : σ) : Prop :=
  Alike holds gives step step state

section Alike

variable {holds : σ → Prop} {gives : α → Prop} {state : σ} {first second : Change σ α}

/-- A step keeps what holds if what it leaves tells so. -/
theorem keeps_of {step : Change σ α} (leaves : holds state → Leaves holds gives (step state)) :
    Keeps holds gives step state :=
  fun held => ⟨rfl, leaves held⟩

/-- Every step keeps what always holds. -/
theorem keeps_anything (step : Change σ α) (state : σ) :
    Keeps (fun _ => True) (fun _ => True) step state :=
  keeps_of fun _ => by
    cases step state with
    | ok value after => exact ⟨trivial, trivial⟩
    | error fault after => trivial

/-- What is kept holds after a success, and the value is as told. -/
theorem Alike.of_ok {value : α} {after : σ} (alike : Alike holds gives first second state)
    (held : holds state) (done : first state = .ok value after) : gives value ∧ holds after := by
  have leaves := (alike held).2
  rwa [done] at leaves

/-- Steps that are alike have the same outcome and leave the same state, of which what is kept
holds. -/
theorem Alike.outcome_eq (alike : Alike holds gives first second state) (held : holds state) :
    first.outcome state = second.outcome state ∧ holds (first.outcome state).2 := by
  obtain ⟨same, leaves⟩ := alike held
  unfold outcome EStateM.run
  rw [← same]
  refine ⟨rfl, ?_⟩
  cases atFirst : first state with
  | ok value after =>
      rw [atFirst] at leaves
      exact leaves.2
  | error fault after =>
      rw [atFirst] at leaves
      exact leaves

/-- Less can be told of the value. -/
theorem Alike.mono {told : α → Prop} (alike : Alike holds gives first second state)
    (weaker : ∀ value, gives value → told value) : Alike holds told first second state := by
  intro held
  obtain ⟨same, leaves⟩ := alike held
  refine ⟨same, ?_⟩
  cases atFirst : first state with
  | ok value after =>
      rw [atFirst] at leaves
      exact ⟨weaker value leaves.1, leaves.2⟩
  | error fault after =>
      rw [atFirst] at leaves
      exact leaves

/-- A value alone keeps everything. -/
theorem keeps_pure {value : α} (given : gives value) :
    Keeps holds gives (pure value : Change σ α) state :=
  fun held => ⟨rfl, given, held⟩

/-- A failure alone keeps everything. -/
theorem keeps_throw (fault : Fault) : Keeps holds gives (throw fault : Change σ α) state :=
  fun held => ⟨rfl, held⟩

/-- A step with a given outcome keeps everything. -/
theorem keeps_lift {result : Outcome α} (given : ∀ value, result = .ok value → gives value) :
    Keeps holds gives (liftM result : Change σ α) state := by
  intro held
  cases result with
  | ok value => exact ⟨rfl, given value rfl, held⟩
  | error fault => exact ⟨rfl, held⟩

/-- A change of the state keeps what it does no harm. -/
theorem keeps_modify {change : σ → σ} (kept : holds state → holds (change state)) :
    Keeps holds (fun _ => True) (modify change : Change σ PUnit) state :=
  fun held => ⟨rfl, trivial, kept held⟩

/-- Steps in sequence are alike if the first ones are, and the others are after them. -/
theorem Alike.bind {later : β → Prop} {next other : α → Change σ β}
    (alike : Alike holds gives first second state)
    (rest : ∀ value after, gives value → Alike holds later (next value) (other value) after) :
    Alike holds later (first >>= next) (second >>= other) state := by
  intro held
  obtain ⟨same, leaves⟩ := alike held
  show EStateM.bind first next state = EStateM.bind second other state ∧
    Leaves holds later (EStateM.bind first next state)
  unfold EStateM.bind
  rw [← same]
  cases atFirst : first state with
  | ok value after =>
      rw [atFirst] at leaves
      exact rest value after leaves.1 leaves.2
  | error fault after =>
      rw [atFirst] at leaves
      exact ⟨rfl, leaves⟩

/-- Steps that begin with an outcome are alike if what follows a success is. -/
theorem alike_lift_bind {later : β → Prop} {result : Outcome α} {next other : α → Change σ β}
    (rest : ∀ value, result = .ok value → Alike holds later (next value) (other value) state) :
    Alike holds later (liftM result >>= next) (liftM result >>= other) state := by
  cases result with
  | ok value => exact rest value rfl
  | error fault => exact fun held => ⟨rfl, held⟩

/-- Steps that begin by reading the state are alike if they go on alike. -/
theorem alike_get_bind {later : β → Prop} {next other : σ → Change σ β}
    (rest : holds state → Alike holds later (next state) (other state) state) :
    Alike holds later (get >>= next) (get >>= other) state :=
  fun held => rest held held

/-- A step on a part of the state is alike to another if they are alike there. -/
theorem Alike.within {part : σ → τ} {replace : τ → σ → σ} {inner : τ → Prop}
    {first second : Change τ α} (alike : Alike inner gives first second (part state))
    (parts : holds state → inner (part state))
    (replaced : ∀ changed, holds state → inner changed → holds (replace changed state)) :
    Alike holds gives (Change.within part replace first) (Change.within part replace second)
      state := by
  intro held
  obtain ⟨same, leaves⟩ := alike (parts held)
  unfold Change.within
  rw [← same]
  cases atFirst : first (part state) with
  | ok value changed =>
      rw [atFirst] at leaves
      exact ⟨rfl, leaves.1, replaced changed held leaves.2⟩
  | error fault changed =>
      rw [atFirst] at leaves
      exact ⟨rfl, replaced changed held leaves⟩

/-- Steps for the elements of a list, without results, are alike if each of them is. -/
theorem alike_forM {step other : α → Change σ PUnit}
    (alike : ∀ element after, Alike holds (fun _ => True) (step element) (other element) after)
    (list : List α) : Alike holds (fun _ => True) (list.forM step) (list.forM other) state := by
  induction list generalizing state with
  | nil => exact keeps_pure trivial
  | cons element rest inductionHypothesis =>
      exact (alike element state).bind fun _ _ _ => inductionHypothesis

/-- Steps for the elements of a list are alike if each of them is. -/
theorem alike_mapM {step other : α → Change σ β}
    (alike : ∀ element after, Alike holds (fun _ => True) (step element) (other element) after)
    (list : List α) : Alike holds (fun _ => True) (list.mapM step) (list.mapM other) state := by
  induction list generalizing state with
  | nil => exact keeps_pure trivial
  | cons element rest inductionHypothesis =>
      rw [List.mapM_cons, List.mapM_cons]
      refine (alike element state).bind fun _ _ _ => ?_
      exact inductionHypothesis.bind fun _ _ _ => keeps_pure trivial

end Alike

end Change
end Monochrome
