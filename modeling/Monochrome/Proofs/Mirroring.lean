import Monochrome.Proofs.Change

/-!
# Steps in related states

A step that succeeds in one state is mirrored if in every related state it succeeds with the same
result and leaves related states.  What is made of mirrored steps is mirrored, and a list of steps
is mirrored as long as what happens in the course of it does no harm.  It fails if a step fails where
something happens.
-/

namespace Monochrome
namespace Change

variable {σ τ α β : Type}

/-- Whether a step, if it succeeds in a state, does the same in every related state. -/
def IsMirrored (relation : σ → σ → Prop) (step : Change σ α) (state : σ) : Prop :=
  ∀ other value after, relation state other → step state = .ok value after →
    ∃ mirrored, step other = .ok value mirrored ∧ relation after mirrored

/-- Whether something happens in the course of the steps for the elements of a list: at an element,
in the state that the steps before it leave. -/
def Happens (step : α → Change σ β) (event : α → σ → Prop) : List α → σ → Prop
  | [], _ => False
  | first :: rest, state =>
    event first state ∨
      ∃ value next, step first state = .ok value next ∧ Happens step event rest next

section Failing

variable {event : α → σ → Prop} {list : List α} {state : σ} {fault : Fault}

/-- Steps for the elements of a list, without results, fail if something happens where a step
fails. -/
theorem fails_forM_of_happens {step : α → Change σ PUnit}
    (fails : ∀ element state, event element state → (step element).Fails state fault)
    (happens : Happens step event list state) : (list.forM step).Fails state fault := by
  induction list generalizing state with
  | nil => exact happens.elim
  | cons first rest inductionHypothesis =>
      rcases happens with here | ⟨value, next, done, later⟩
      · exact (fails first state here).bind
      · exact fails_bind done (inductionHypothesis later)

/-- Steps for the elements of a list fail if something happens where a step fails. -/
theorem fails_mapM_of_happens {step : α → Change σ β}
    (fails : ∀ element state, event element state → (step element).Fails state fault)
    (happens : Happens step event list state) : (list.mapM step).Fails state fault := by
  induction list generalizing state with
  | nil => exact happens.elim
  | cons first rest inductionHypothesis =>
      rw [List.mapM_cons]
      rcases happens with here | ⟨value, next, done, later⟩
      · exact (fails first state here).bind
      · exact fails_bind done (inductionHypothesis later).bind

end Failing

section Mirroring

variable {relation : σ → σ → Prop} {state : σ}

/-- A value alone is mirrored. -/
theorem isMirrored_pure (value : α) :
    IsMirrored relation (pure value : Change σ α) state := by
  intro other result after related done
  obtain ⟨rfl, rfl⟩ := pure_eq_ok.1 done
  exact ⟨other, rfl, related⟩

/-- A failure is mirrored. -/
theorem isMirrored_throw (fault : Fault) :
    IsMirrored relation (throw fault : Change σ α) state :=
  fun _ _ _ _ done => (throw_eq_ok.1 done).elim

/-- A step with a given outcome is mirrored. -/
theorem isMirrored_lift (result : Outcome α) :
    IsMirrored relation (liftM result : Change σ α) state := by
  intro other value after related done
  obtain ⟨isValue, rfl⟩ := lift_eq_ok.1 done
  exact ⟨other, lift_eq_ok.2 ⟨isValue, rfl⟩, related⟩

/-- A change of the state is mirrored if it keeps states related. -/
theorem isMirrored_modify {change : σ → σ}
    (keeps : ∀ other, relation state other → relation (change state) (change other)) :
    IsMirrored relation (modify change : Change σ PUnit) state := by
  intro other value after related done
  obtain rfl := modify_eq_ok.1 done
  exact ⟨change other, rfl, keeps other related⟩

/-- Steps in sequence are mirrored if the first is, and the others are in the state that it
leaves. -/
theorem IsMirrored.bind {step : Change σ α} {next : α → Change σ β}
    (first : IsMirrored relation step state)
    (second : ∀ value after, step state = .ok value after →
      IsMirrored relation (next value) after) :
    IsMirrored relation (step >>= next) state := by
  intro other value after related done
  obtain ⟨result, middle, atFirst, atNext⟩ := bind_eq_ok.1 done
  obtain ⟨mirroredMiddle, atFirstToo, relatedMiddle⟩ := first other result middle related atFirst
  obtain ⟨mirrored, atNextToo, relatedAfter⟩ :=
    second result middle atFirst mirroredMiddle value after relatedMiddle atNext
  exact ⟨mirrored, bind_eq_ok.2 ⟨result, mirroredMiddle, atFirstToo, atNextToo⟩, relatedAfter⟩

/-- A step that begins with an outcome is mirrored if what follows a success is. -/
theorem isMirrored_lift_bind {result : Outcome α} {next : α → Change σ β}
    (mirrored : ∀ value, result = .ok value → IsMirrored relation (next value) state) :
    IsMirrored relation (liftM result >>= next) state :=
  (isMirrored_lift result).bind fun value after done => by
    obtain ⟨isValue, rfl⟩ := lift_eq_ok.1 done
    exact mirrored value isValue

/-- A step that begins with a change of the state is mirrored if the change keeps states related and
the rest is mirrored after it. -/
theorem isMirrored_modify_bind {change : σ → σ} {next : PUnit → Change σ β}
    (keeps : ∀ other, relation state other → relation (change state) (change other))
    (mirrored : IsMirrored relation (next ⟨⟩) (change state)) :
    IsMirrored relation (modify change >>= next) state :=
  (isMirrored_modify keeps).bind fun _ after done => by
    obtain rfl := modify_eq_ok.1 done
    exact mirrored

/-- A step that begins by reading the state is mirrored if it goes on in the same way after reading
a related one. -/
theorem isMirrored_get_bind {next : σ → Change σ β}
    (same : ∀ other, relation state other → next other = next state)
    (mirrored : IsMirrored relation (next state) state) :
    IsMirrored relation (get >>= next) state := by
  intro other value after related done
  obtain ⟨_, _, ⟨rfl, rfl⟩, atNext⟩ := by simpa only [bind_eq_ok, get_eq_ok] using done
  obtain ⟨mirroredAfter, atOther, relatedAfter⟩ := mirrored other value after related atNext
  refine ⟨mirroredAfter, ?_, relatedAfter⟩
  exact bind_eq_ok.2 ⟨other, other, rfl, same other related ▸ atOther⟩

/-- A changed result does not matter. -/
theorem IsMirrored.map {step : Change σ α} (mirrored : IsMirrored relation step state)
    (change : α → β) : IsMirrored relation (change <$> step) state := by
  rw [map_eq_pure_bind]
  exact mirrored.bind fun value _ _ => isMirrored_pure _

/-- A step on a part of the state is mirrored if it is there, and related states have related parts
and stay related when these are replaced. -/
theorem IsMirrored.within {part : σ → τ} {replace : τ → σ → σ} {inner : τ → τ → Prop}
    {step : Change τ α} (mirrored : IsMirrored inner step (part state))
    (parts : ∀ other, relation state other → inner (part state) (part other))
    (replaced : ∀ other changed mirrored, relation state other → inner changed mirrored →
      relation (replace changed state) (replace mirrored other)) :
    IsMirrored relation (Change.within part replace step) state := by
  intro other value after related done
  obtain ⟨changed, atPart, rfl⟩ := within_eq_ok.1 done
  obtain ⟨mirroredPart, atOther, relatedParts⟩ :=
    mirrored (part other) value changed (parts other related) atPart
  exact ⟨replace mirroredPart other, within_eq_ok.2 ⟨mirroredPart, atOther, rfl⟩,
    replaced other changed mirroredPart related relatedParts⟩

/-- Every step is mirrored in the same state. -/
theorem isMirrored_eq (step : Change σ α) : IsMirrored Eq step state := by
  rintro _ value after rfl done
  exact ⟨after, done, rfl⟩

variable {ι : Type} {harmless : ι → Prop}

/-- Steps for the elements of a list, without results, are mirrored if each of them is as long as
what happens there does no harm. -/
theorem isMirrored_forM {step : α → Change σ PUnit} {event : ι → α → σ → Prop}
    (mirrored : ∀ element state, (∀ index, event index element state → harmless index) →
      IsMirrored relation (step element) state)
    {list : List α} (safe : ∀ index, Happens step (event index) list state → harmless index) :
    IsMirrored relation (list.forM step) state := by
  induction list generalizing state with
  | nil => exact isMirrored_pure _
  | cons first rest inductionHypothesis =>
      refine (mirrored first state fun index happens => safe index (Or.inl happens)).bind ?_
      intro value next done
      exact inductionHypothesis fun index happens =>
        safe index (Or.inr ⟨value, next, done, happens⟩)

/-- Steps for the elements of a list are mirrored if each of them is as long as what happens there
does no harm. -/
theorem isMirrored_mapM {step : α → Change σ β} {event : ι → α → σ → Prop}
    (mirrored : ∀ element state, (∀ index, event index element state → harmless index) →
      IsMirrored relation (step element) state)
    {list : List α} (safe : ∀ index, Happens step (event index) list state → harmless index) :
    IsMirrored relation (list.mapM step) state := by
  induction list generalizing state with
  | nil => exact isMirrored_pure _
  | cons first rest inductionHypothesis =>
      rw [List.mapM_cons]
      refine (mirrored first state fun index happens => safe index (Or.inl happens)).bind ?_
      intro value next done
      refine IsMirrored.bind (inductionHypothesis fun index happens =>
        safe index (Or.inr ⟨value, next, done, happens⟩)) fun _ _ _ => isMirrored_pure _

end Mirroring

end Change
end Monochrome
