import Monochrome.Proofs.Mirroring

/-!
# What a step does from a state

What a step does to a part of the state can depend on the state from which it is taken.  A step that
is made of others does what each of them does from where the ones before it come to, as far as they
come at all.
-/

namespace Monochrome
namespace Change

variable {σ τ π υ α β ι : Type}

/-- What happens in the course of steps happens at an element, in some state. -/
theorem Happens.exists_mem {step : α → Change σ β} {event : α → σ → Prop} {list : List α}
    {state : σ} (happens : Happens step event list state) :
    ∃ element ∈ list, ∃ middle, event element middle := by
  induction list generalizing state with
  | nil => exact happens.elim
  | cons first rest inductionHypothesis =>
      rcases happens with here | ⟨value, next, _, later⟩
      · exact ⟨first, List.mem_cons_self, state, here⟩
      · obtain ⟨element, isElement, found⟩ := inductionHypothesis later
        exact ⟨element, List.mem_cons_of_mem _ isElement, found⟩

/-- Whether a step relates a part of a state to that part of the state after it, also if it
fails. -/
def RespectsAt (part : σ → τ) (relation : τ → τ → Prop) (step : Change σ α) (state : σ) : Prop :=
  relation (part state) (part (step.outcome state).2)

section RespectsAt

variable {part : σ → τ} {relation : τ → τ → Prop} {state : σ}

/-- What a step does from a state is true of the states around a success. -/
theorem RespectsAt.of_ok {step : Change σ α} (respects : RespectsAt part relation step state)
    {value : α} {after : σ} (done : step state = .ok value after) :
    relation (part state) (part after) := by
  unfold RespectsAt outcome EStateM.run at respects
  rwa [done] at respects

/-- A step does from a state what is true of the states around its success or failure. -/
theorem respectsAt_of {step : Change σ α}
    (ofOk : ∀ value after, step state = .ok value after → relation (part state) (part after))
    (ofError : ∀ fault after, step state = .error fault after →
      relation (part state) (part after)) : RespectsAt part relation step state := by
  unfold RespectsAt outcome EStateM.run
  cases done : step state with
  | ok value after => exact ofOk value after done
  | error fault after => exact ofError fault after done

/-- A step on a part of the state does what is true of every replacement that the step makes. -/
theorem RespectsAt.within {inside : σ → π} {replace : π → σ → σ} {inner : π → υ}
    {within : υ → υ → Prop} {step : Change π α}
    (respects : RespectsAt inner within step (inside state))
    (lifts : ∀ changed, within (inner (inside state)) (inner changed) →
      relation (part state) (part (replace changed state))) :
    RespectsAt part relation (Change.within inside replace step) state := by
  apply respectsAt_of
  · intro value after done
    obtain ⟨changed, atStep, rfl⟩ := within_eq_ok.1 done
    exact lifts changed (respects.of_ok atStep)
  · intro fault after failed
    unfold RespectsAt outcome EStateM.run at respects
    unfold Change.within at failed
    cases atStep : step (inside state) with
    | ok value changed => simp [atStep] at failed
    | error other changed =>
        simp only [atStep, EStateM.Result.error.injEq] at failed
        rw [atStep] at respects
        rw [← failed.2]
        exact lifts changed respects

/-- A step that begins by reading the state does what follows. -/
theorem respectsAt_get_bind {next : σ → Change σ β}
    (rest : RespectsAt part relation (next state) state) :
    RespectsAt part relation (get >>= next) state :=
  rest

variable [IsPreorder τ relation]

/-- A value alone changes nothing. -/
theorem respectsAt_pure (value : α) (state : σ) :
    RespectsAt part relation (pure value : Change σ α) state :=
  refl_of relation _

/-- A step with a given outcome changes nothing. -/
theorem respectsAt_lift (result : Outcome α) (state : σ) :
    RespectsAt part relation (liftM result : Change σ α) state :=
  respects_lift result state

/-- A failure alone changes nothing. -/
theorem respectsAt_throw (fault : Fault) (state : σ) :
    RespectsAt part relation (throw fault : Change σ α) state :=
  refl_of relation _

/-- A step that begins with an outcome does what follows if the outcome is a success. -/
theorem respectsAt_lift_bind {result : Outcome α} {next : α → Change σ β}
    (rest : ∀ value, result = .ok value → RespectsAt part relation (next value) state) :
    RespectsAt part relation (liftM result >>= next) state := by
  unfold RespectsAt
  rw [outcome_lift_bind]
  cases result with
  | ok value => exact rest value rfl
  | error fault => exact refl_of relation _

/-- Steps in sequence do what each of them does from where the ones before it come to. -/
theorem RespectsAt.bind {step : Change σ α} {next : α → Change σ β}
    (first : RespectsAt part relation step state)
    (rest : ∀ value after, step state = .ok value after →
      RespectsAt part relation (next value) after) :
    RespectsAt part relation (step >>= next) state := by
  unfold RespectsAt at first ⊢
  rw [outcome_bind]
  unfold outcome EStateM.run at first ⊢
  cases done : step state with
  | ok value after =>
      rw [done] at first
      exact trans_of relation first (rest value after done)
  | error fault after =>
      rw [done] at first
      exact first

/-- A step that begins with a change of the state does what is true of it and of what follows. -/
theorem respectsAt_modify_bind {change : σ → σ} {next : PUnit → Change σ β}
    (changed : relation (part state) (part (change state)))
    (rest : RespectsAt part relation (next ⟨⟩) (change state)) :
    RespectsAt part relation ((modify change : Change σ PUnit) >>= next) state :=
  trans_of relation changed rest

/-- Steps for the elements of a list do what each of them does in the course of them. -/
theorem respectsAt_mapM (event : α → σ → ι → Prop) (allowed : ι → Prop) {step : α → Change σ β}
    {list : List α}
    (atStep : ∀ element state, (∀ what, event element state what → allowed what) →
      RespectsAt part relation (step element) state)
    (all : ∀ what, Happens step (fun element state => event element state what) list state →
      allowed what) : RespectsAt part relation (list.mapM step) state := by
  induction list generalizing state with
  | nil => exact refl_of relation _
  | cons first rest inductionHypothesis =>
      rw [List.mapM_cons]
      refine (atStep first state fun what here => all what (Or.inl here)).bind
        fun value after done => ?_
      have others := inductionHypothesis fun what later =>
        all what (Or.inr ⟨value, after, done, later⟩)
      exact others.bind fun _ _ _ => respectsAt_pure _ _

/-- Steps for the elements of a list, without results, do what each of them does in the course of
them. -/
theorem respectsAt_forM (event : α → σ → ι → Prop) (allowed : ι → Prop)
    {step : α → Change σ PUnit} {list : List α}
    (atStep : ∀ element ∈ list, ∀ state, (∀ what, event element state what → allowed what) →
      RespectsAt part relation (step element) state)
    (all : ∀ what, Happens step (fun element state => event element state what) list state →
      allowed what) : RespectsAt part relation (list.forM step) state := by
  induction list generalizing state with
  | nil => exact refl_of relation _
  | cons first rest inductionHypothesis =>
      obtain ⟨atFirst, atRest⟩ := List.forall_mem_cons.1 atStep
      refine (atFirst state fun what here => all what (Or.inl here)).bind
        fun value after done => ?_
      exact inductionHypothesis atRest fun what later =>
        all what (Or.inr ⟨value, after, done, later⟩)

end RespectsAt

end Change
end Monochrome
