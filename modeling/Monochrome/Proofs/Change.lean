import Mathlib.Order.Defs.Unbundled
import Monochrome.Change

/-!
# Laws of changes

A change that succeeds is taken apart into the steps that it is made of.  What every step does to
the state, even if it fails, the whole change does, if it can be done any number of times.
-/

namespace Monochrome
namespace Change

variable {σ τ π υ α β : Type}

section Success

variable {state after : σ} {value : β}

/-- A sequence of steps succeeds if the first does and the others do after it. -/
theorem bind_eq_ok {step : Change σ α} {next : α → Change σ β} :
    (step >>= next) state = .ok value after ↔
      ∃ first middle, step state = .ok first middle ∧ next first middle = .ok value after := by
  show EStateM.bind step next state = _ ↔ _
  unfold EStateM.bind
  cases step state with
  | ok first middle =>
      constructor
      · exact fun done => ⟨first, middle, rfl, done⟩
      · rintro ⟨_, _, ⟨⟩, done⟩
        exact done
  | error fault middle => simp

/-- A value alone succeeds and changes nothing. -/
theorem pure_eq_ok {result : β} :
    (pure result : Change σ β) state = .ok value after ↔ result = value ∧ state = after := by
  show EStateM.pure result state = _ ↔ _
  simp [EStateM.pure]

/-- A changed result comes from a step that succeeds. -/
theorem map_eq_ok {step : Change σ α} {change : α → β} :
    (change <$> step) state = .ok value after ↔
      ∃ first, step state = .ok first after ∧ change first = value := by
  show EStateM.map change step state = _ ↔ _
  unfold EStateM.map
  cases step state with
  | ok first middle =>
      constructor
      · rintro ⟨⟩
        exact ⟨first, rfl, rfl⟩
      · rintro ⟨_, ⟨⟩, rfl⟩
        rfl
  | error fault middle => simp

/-- Reading the state succeeds and changes nothing. -/
theorem get_eq_ok {result : σ} :
    (get : Change σ σ) state = .ok result after ↔ state = result ∧ state = after := by
  show EStateM.Result.ok state state = .ok result after ↔ _
  simp

/-- Changing the state succeeds. -/
theorem modify_eq_ok {change : σ → σ} {done : PUnit} :
    (modify change : Change σ PUnit) state = .ok done after ↔ change state = after := by
  show EStateM.Result.ok PUnit.unit (change state) = .ok done after ↔ _
  simp

/-- Replacing the state succeeds. -/
theorem set_eq_ok {replacement : σ} {done : PUnit} :
    (EStateM.set replacement : Change σ PUnit) state = .ok done after ↔ replacement = after := by
  show EStateM.Result.ok PUnit.unit replacement = .ok done after ↔ _
  simp

/-- A failure is no success. -/
theorem throw_eq_ok {fault : Fault} :
    (throw fault : Change σ β) state = .ok value after ↔ False := by
  show EStateM.Result.error fault state = .ok value after ↔ _
  simp

/-- A step with a given outcome succeeds if that is a success. -/
theorem lift_eq_ok {result : Outcome β} :
    (liftM result : Change σ β) state = .ok value after ↔ result = .ok value ∧ state = after := by
  show ofOutcome result state = _ ↔ _
  cases result <;> simp [ofOutcome]

/-- Steps for the elements of a list succeed if the first does and the others do after it. -/
theorem mapM_cons_eq_ok {step : α → Change σ β} {first : α} {rest : List α} {values : List β} :
    (first :: rest).mapM step state = .ok values after ↔
      ∃ value middle others, step first state = .ok value middle ∧
        rest.mapM step middle = .ok others after ∧ value :: others = values := by
  simp only [List.mapM_cons, bind_eq_ok, pure_eq_ok]
  constructor
  · rintro ⟨value, middle, atFirst, others, after, atRest, rfl, rfl⟩
    exact ⟨value, middle, others, atFirst, atRest, rfl⟩
  · rintro ⟨value, middle, others, atFirst, atRest, rfl⟩
    exact ⟨value, middle, atFirst, others, after, atRest, rfl, rfl⟩

/-- Steps for the elements of a list that succeed have as many results. -/
theorem length_of_mapM {step : α → Change σ β} {list : List α} {values : List β}
    (done : list.mapM step state = .ok values after) : values.length = list.length := by
  induction list generalizing values state with
  | nil =>
      rw [List.mapM_nil, pure_eq_ok] at done
      rw [← done.1]
      rfl
  | cons first rest inductionHypothesis =>
      obtain ⟨value, next, others, _, atRest, rfl⟩ := mapM_cons_eq_ok.1 done
      simp [inductionHypothesis atRest]

/-- Steps for the elements of a list that succeed do so for those at its beginning, and then for
the rest. -/
theorem mapM_take_drop {step : α → Change σ β} {list : List α} {values : List β}
    (done : list.mapM step state = .ok values after) (count : Nat) :
    ∃ middle, (list.take count).mapM step state = .ok (values.take count) middle ∧
      (list.drop count).mapM step middle = .ok (values.drop count) after := by
  induction count generalizing list values state with
  | zero => exact ⟨state, by simp [pure_eq_ok], by simpa using done⟩
  | succ count inductionHypothesis =>
      cases list with
      | nil =>
          rw [List.mapM_nil, pure_eq_ok] at done
          obtain ⟨rfl, rfl⟩ := done
          exact ⟨state, by simp [pure_eq_ok], by simp [pure_eq_ok]⟩
      | cons first rest =>
          obtain ⟨value, next, others, atFirst, atRest, rfl⟩ := mapM_cons_eq_ok.1 done
          obtain ⟨middle, early, late⟩ := inductionHypothesis atRest
          refine ⟨middle, ?_, by simpa using late⟩
          rw [List.take_succ_cons, List.take_succ_cons]
          exact mapM_cons_eq_ok.2 ⟨value, next, _, atFirst, early, rfl⟩

/-- Steps for the elements of a list with a single result are one step. -/
theorem mapM_eq_singleton {step : α → Change σ β} {list : List α}
    (done : list.mapM step state = .ok [value] after) :
    ∃ element ∈ list, step element state = .ok value after := by
  cases list with
  | nil => simp [pure_eq_ok] at done
  | cons first rest =>
      obtain ⟨result, middle, others, atFirst, atRest, same⟩ := mapM_cons_eq_ok.1 done
      obtain ⟨rfl, rfl⟩ := List.cons.inj same
      cases rest with
      | nil =>
          obtain ⟨_, rfl⟩ := pure_eq_ok.1 atRest
          exact ⟨first, by simp, atFirst⟩
      | cons second rest =>
          obtain ⟨_, _, _, _, _, different⟩ := mapM_cons_eq_ok.1 atRest
          simp at different

/-- Steps for the elements of a list succeed, without results, if the first does and the others do
after it. -/
theorem forM_cons_eq_ok {step : α → Change σ PUnit} {first : α} {rest : List α} {done : PUnit} :
    (first :: rest).forM step state = .ok done after ↔
      ∃ middle, step first state = .ok done middle ∧ rest.forM step middle = .ok done after := by
  show (step first >>= fun _ => rest.forM step) state = _ ↔ _
  rw [bind_eq_ok]
  exact ⟨fun ⟨_, middle, atFirst, atRest⟩ => ⟨middle, atFirst, atRest⟩,
    fun ⟨middle, atFirst, atRest⟩ => ⟨done, middle, atFirst, atRest⟩⟩

/-- A step on a part of the state succeeds if it does there. -/
theorem within_eq_ok {part : σ → τ} {replace : τ → σ → σ} {step : Change τ β} :
    within part replace step state = .ok value after ↔
      ∃ changed, step (part state) = .ok value changed ∧ replace changed state = after := by
  unfold within
  cases step (part state) with
  | ok result changed =>
      constructor
      · rintro ⟨⟩
        exact ⟨changed, rfl, rfl⟩
      · rintro ⟨_, ⟨⟩, rfl⟩
        rfl
  | error fault changed => simp

/-- A step on a part of the state that cannot fail succeeds with what it computes. -/
theorem always_eq_ok {part : σ → τ} {replace : τ → σ → σ} {step : StateM τ β} :
    always part replace step state = .ok value after ↔
      (step (part state)).1 = value ∧ replace (step (part state)).2 state = after := by
  show EStateM.Result.ok (step (part state)).1 (replace (step (part state)).2 state) = _ ↔ _
  rw [EStateM.Result.ok.injEq]

end Success

section Outcome

variable {state : σ}

@[simp] theorem outcome_pure (value : α) :
    (pure value : Change σ α).outcome state = (.ok value, state) :=
  rfl

@[simp] theorem outcome_modify (change : σ → σ) :
    (modify change : Change σ PUnit).outcome state = (.ok ⟨⟩, change state) :=
  rfl

/-- A step with a given outcome has it, and changes nothing. -/
@[simp] theorem outcome_lift (result : Outcome α) :
    (liftM result : Change σ α).outcome state = (result, state) := by
  cases result <;> rfl

/-- After the state is read, the next step starts from it. -/
theorem outcome_get_bind (next : σ → Change σ β) :
    (get >>= next).outcome state = (next state).outcome state :=
  rfl

/-- After a step that fails nothing is done; after another one the next step is. -/
theorem outcome_bind (step : Change σ α) (next : α → Change σ β) :
    (step >>= next).outcome state =
      match step.outcome state with
      | (.ok value, after) => (next value).outcome after
      | (.error fault, after) => (.error fault, after) := by
  have inOrder : (step >>= next) state = EStateM.bind step next state := rfl
  unfold outcome EStateM.run
  rw [inOrder]
  unfold EStateM.bind
  cases step state <;> rfl

/-- After a step with a given outcome the next one is done if it is a success. -/
theorem outcome_lift_bind (result : Outcome α) (next : α → Change σ β) :
    ((liftM result : Change σ α) >>= next).outcome state =
      match result with
      | .ok value => (next value).outcome state
      | .error fault => (.error fault, state) := by
  cases result <;> rfl

end Outcome

section Error

variable {state after : σ} {fault : Fault}

/-- A sequence of steps fails if the first does, or the others do after it. -/
theorem bind_eq_error {step : Change σ α} {next : α → Change σ β} :
    (step >>= next) state = .error fault after ↔
      step state = .error fault after ∨
        ∃ value middle, step state = .ok value middle ∧ next value middle = .error fault after := by
  show EStateM.bind step next state = _ ↔ _
  unfold EStateM.bind
  cases step state with
  | ok value middle =>
      constructor
      · exact fun failed => Or.inr ⟨value, middle, rfl, failed⟩
      · rintro (failed | ⟨_, _, done, failed⟩)
        · cases failed
        · cases done
          exact failed
  | error fault middle => simp

/-- Reading the state does not fail. -/
theorem get_eq_error : (get : Change σ σ) state = .error fault after ↔ False := by
  show EStateM.Result.ok state state = .error fault after ↔ _
  simp

/-- Changing the state does not fail. -/
theorem modify_eq_error {change : σ → σ} :
    (modify change : Change σ PUnit) state = .error fault after ↔ False := by
  show EStateM.Result.ok PUnit.unit (change state) = .error fault after ↔ _
  simp

/-- A value alone does not fail. -/
theorem pure_eq_error {result : β} :
    (pure result : Change σ β) state = .error fault after ↔ False := by
  show EStateM.Result.ok result state = .error fault after ↔ _
  simp

/-- A step that cannot fail does not. -/
theorem always_eq_error {part : σ → τ} {replace : τ → σ → σ} {step : StateM τ β} :
    always part replace step state = .error fault after ↔ False := by
  show EStateM.Result.ok (step (part state)).1 (replace (step (part state)).2 state) = _ ↔ _
  simp

/-- A step with a given outcome fails if that is a failure, and changes nothing. -/
theorem lift_eq_error {result : Outcome β} :
    (liftM result : Change σ β) state = .error fault after ↔
      result = .error fault ∧ state = after := by
  show ofOutcome result state = _ ↔ _
  cases result <;> simp [ofOutcome]

/-- A step on a part of the state fails if it does there. -/
theorem within_eq_error {part : σ → τ} {replace : τ → σ → σ} {step : Change τ β} :
    within part replace step state = .error fault after ↔
      ∃ changed, step (part state) = .error fault changed ∧ replace changed state = after := by
  unfold within
  cases step (part state) with
  | ok result changed => simp
  | error other changed =>
      constructor
      · rintro ⟨⟩
        exact ⟨changed, rfl, rfl⟩
      · rintro ⟨_, ⟨⟩, rfl⟩
        rfl

end Error

/-- Whether a step fails in a state, with a fault. -/
def Fails (step : Change σ α) (state : σ) (fault : Fault) : Prop :=
  ∃ after, step state = .error fault after

section Failure

variable {step : Change σ α} {next : α → Change σ β} {state : σ} {fault : Fault}

/-- A sequence of steps fails if the first one does. -/
theorem Fails.bind (failed : step.Fails state fault) : (step >>= next).Fails state fault := by
  obtain ⟨after, failed⟩ := failed
  refine ⟨after, ?_⟩
  show EStateM.bind step next state = _
  unfold EStateM.bind
  rw [failed]

/-- A sequence of steps fails if the first one succeeds and the others fail after it. -/
theorem fails_bind {value : α} {middle : σ} (done : step state = .ok value middle)
    (failed : (next value).Fails middle fault) : (step >>= next).Fails state fault := by
  obtain ⟨after, failed⟩ := failed
  refine ⟨after, ?_⟩
  show EStateM.bind step next state = _
  unfold EStateM.bind
  rw [done]
  exact failed

/-- Reading the state does not fail. -/
theorem fails_get_bind {next : σ → Change σ β} (failed : (next state).Fails state fault) :
    (get >>= next).Fails state fault :=
  failed

/-- A step with a given outcome does not fail if that is a success. -/
theorem fails_lift_bind {result : Outcome α} {value : α} (isValue : result = .ok value)
    (failed : (next value).Fails state fault) : (liftM result >>= next).Fails state fault := by
  rw [isValue]
  exact failed

/-- Changing the state does not fail. -/
theorem fails_modify_bind {change : σ → σ} {next : PUnit → Change σ β}
    (failed : (next ⟨⟩).Fails (change state) fault) :
    ((modify change : Change σ PUnit) >>= next).Fails state fault :=
  failed

/-- A step on a part of the state fails if it does there. -/
theorem Fails.within {part : σ → τ} {replace : τ → σ → σ} {step : Change τ β}
    (failed : step.Fails (part state) fault) : (within part replace step).Fails state fault := by
  obtain ⟨changed, failed⟩ := failed
  refine ⟨replace changed state, ?_⟩
  unfold Change.within
  rw [failed]

end Failure

/-- Whether a step relates a part of every state to that part of the state after it, also if it
fails. -/
def Respects (part : σ → τ) (relation : τ → τ → Prop) (step : Change σ α) : Prop :=
  ∀ state, relation (part state) (part (step.outcome state).2)

section Respects

variable {part : σ → τ} {relation : τ → τ → Prop}

/-- What a step respects holds of the states around a success. -/
theorem Respects.of_ok {step : Change σ α} (respects : Respects part relation step)
    {state after : σ} {value : α} (done : step state = .ok value after) :
    relation (part state) (part after) := by
  have related := respects state
  simpa [outcome, EStateM.run, done] using related

/-- What a step respects holds of the states around a failure. -/
theorem Respects.of_error {step : Change σ α} (respects : Respects part relation step)
    {state after : σ} {fault : Fault} (failed : step state = .error fault after) :
    relation (part state) (part after) := by
  have related := respects state
  simpa [outcome, EStateM.run, failed] using related

/-- A step respects a relation that holds of the states around its successes and failures. -/
theorem respects_of {step : Change σ α}
    (ofOk : ∀ state value after, step state = .ok value after →
      relation (part state) (part after))
    (ofError : ∀ state fault after, step state = .error fault after →
      relation (part state) (part after)) :
    Respects part relation step := by
  intro state
  cases done : step state with
  | ok value after =>
      simpa [outcome, EStateM.run, done] using ofOk state value after done
  | error fault after =>
      simpa [outcome, EStateM.run, done] using ofError state fault after done

/-- A step on a part of the state respects what is true of every replacement of the part that the
step respects. -/
theorem Respects.within {inside : σ → π} {replace : π → σ → σ} {inner : π → υ}
    {within : υ → υ → Prop} {step : Change π α} (respects : Respects inner within step)
    (lifts : ∀ state changed, within (inner (inside state)) (inner changed) →
      relation (part state) (part (replace changed state))) :
    Respects part relation (Change.within inside replace step) := by
  intro state
  have related := respects (inside state)
  unfold outcome EStateM.run at related ⊢
  unfold Change.within
  cases done : step (inside state) with
  | ok value changed => exact lifts state changed (by simpa [done] using related)
  | error fault changed => exact lifts state changed (by simpa [done] using related)

/-- A change of the state respects what is true of it. -/
theorem respects_modify {change : σ → σ}
    (related : ∀ state, relation (part state) (part (change state))) :
    Respects part relation (modify change : Change σ PUnit) :=
  related

variable [IsPreorder τ relation]

/-- A value alone respects everything. -/
theorem respects_pure (value : α) : Respects part relation (pure value : Change σ α) :=
  fun _ => refl_of relation _

/-- A failure alone respects everything. -/
theorem respects_throw (fault : Fault) : Respects part relation (throw fault : Change σ α) :=
  fun _ => refl_of relation _

/-- Reading the state respects everything. -/
theorem respects_get : Respects part relation (get : Change σ σ) :=
  fun _ => refl_of relation _

/-- A step with a given outcome respects everything. -/
theorem respects_lift (result : Outcome α) :
    Respects part relation (liftM result : Change σ α) := by
  intro state
  cases result <;> exact refl_of relation _

/-- Steps in sequence respect what each of them respects. -/
theorem Respects.bind {step : Change σ α} {next : α → Change σ β}
    (first : Respects part relation step) (second : ∀ value, Respects part relation (next value)) :
    Respects part relation (step >>= next) := by
  intro state
  have related := first state
  have inOrder : (step >>= next) state = EStateM.bind step next state := rfl
  unfold outcome EStateM.run at related ⊢
  rw [inOrder]
  unfold EStateM.bind
  cases done : step state with
  | ok value middle =>
      simp only [done] at related
      exact trans_of relation related (second value middle)
  | error fault middle => simpa [done] using related

/-- A changed result does not matter. -/
theorem Respects.map {step : Change σ α} (respects : Respects part relation step)
    (change : α → β) : Respects part relation (change <$> step) := by
  rw [map_eq_pure_bind]
  exact respects.bind fun value => respects_pure _

/-- Steps for the elements of a list respect what each of them respects. -/
theorem respects_mapM {step : α → Change σ β}
    (respects : ∀ element, Respects part relation (step element)) (list : List α) :
    Respects part relation (list.mapM step) := by
  induction list with
  | nil => exact respects_pure _
  | cons first rest inductionHypothesis =>
      rw [List.mapM_cons]
      exact (respects first).bind fun value =>
        inductionHypothesis.bind fun values => respects_pure _

/-- Steps for the elements of a list, without results, respect what each of them respects. -/
theorem respects_forM {step : α → Change σ PUnit}
    (respects : ∀ element, Respects part relation (step element)) (list : List α) :
    Respects part relation (list.forM step) := by
  induction list with
  | nil => exact respects_pure _
  | cons first rest inductionHypothesis =>
      exact (respects first).bind fun _ => inductionHypothesis

end Respects

end Change
end Monochrome
