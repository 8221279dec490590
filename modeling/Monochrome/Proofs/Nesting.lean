import Mathlib.Data.List.Nodup
import Monochrome.Proofs.Keeping
import Monochrome.Proofs.Limits
import Monochrome.Trail

/-!
# Nested streams

A walk through a stream comes to other streams, which it walks in turn, each below a trail of those
that enclose it.  Where it comes to a stream is told by what becomes of it: it fails as the walk of
the stream does, however that may fail.  The trail there is made of the streams that enclose it, so
that it names none of them twice and is no longer than it may be.
-/

namespace Monochrome

namespace Trail

variable {limit : Nat} {location : Option ObjectId} {trail inside : Trail}

/-- Whether a trail names no object twice and is not too long. -/
structure IsSound (limit : Nat) (trail : Trail) : Prop where
  distinct : (trail.filterMap id).Nodup
  bounded : trail.length ≤ limit + 1

/-- A trail without streams is sound. -/
theorem isSound_nil : IsSound limit [] where
  distinct := List.nodup_nil
  bounded := Nat.zero_le _

/-- A trail is sound after a stream was entered. -/
theorem IsSound.enter (sound : trail.IsSound limit)
    (entered : trail.enter limit location = .ok inside) : inside.IsSound limit := by
  obtain ⟨fresh, room, rfl⟩ := enter_eq_ok.1 entered
  refine ⟨?_, Nat.succ_le_succ room⟩
  cases location with
  | none => exact sound.distinct
  | some target =>
      refine List.nodup_cons.2 ⟨fun known => ?_, sound.distinct⟩
      obtain ⟨_, isKnown, rfl⟩ := List.mem_filterMap.1 known
      exact fresh target rfl isKnown

/-- A stream that is on the trail cannot be entered. -/
theorem enter_of_mem {target : ObjectId} (known : some target ∈ trail) :
    trail.enter limit (some target) = .error (.cyclic target) := by
  simp [Trail.enter, known]

/-- Another stream cannot be entered if the trail has no room for it. -/
theorem enter_of_full (fresh : ∀ target ∈ location, some target ∉ trail)
    (full : limit < trail.length) : trail.enter limit location = .error (.nesting limit) := by
  cases location with
  | none => simp [Trail.enter, enter.push, full]
  | some target => simp [Trail.enter, enter.push, full, fresh target rfl]

/-- The trail after entering streams one inside the other. -/
def enterAll (limit : Nat) : List (Option ObjectId) → Trail → Outcome Trail
  | [], trail => .ok trail
  | location :: rest, trail => do enterAll limit rest (← trail.enter limit location)

/-- Other streams can be entered one inside the other, as long as the trail has room for them. -/
theorem enterAll_chain {chain : List ObjectId} (distinct : chain.Nodup)
    (fresh : ∀ target ∈ chain, some target ∉ trail) (room : trail.length ≤ limit + 1) :
    enterAll limit (chain.map some) trail =
      if trail.length + chain.length ≤ limit + 1 then .ok ((chain.map some).reverse ++ trail)
      else .error (.nesting limit) := by
  induction chain generalizing trail with
  | nil => simp [enterAll, room]
  | cons target rest inductionHypothesis =>
      obtain ⟨notLater, distinctRest⟩ := List.nodup_cons.1 distinct
      have freshTarget : ∀ other ∈ some target, some other ∉ trail := by
        rintro _ ⟨⟩
        exact fresh target List.mem_cons_self
      rw [List.map_cons, enterAll]
      by_cases full : limit < trail.length
      · rw [enter_of_full freshTarget full, if_neg (by rw [List.length_cons]; omega)]
        rfl
      · have entered := enter_eq_ok.2 ⟨freshTarget, Nat.not_lt.1 full, rfl⟩
        have freshRest : ∀ other ∈ rest, some other ∉ some target :: trail := by
          intro other isRest known
          rcases List.mem_cons.1 known with same | known
          · exact notLater (Option.some.inj same ▸ isRest)
          · exact fresh other (List.mem_cons_of_mem _ isRest) known
        rw [entered, Limited.ok_bind, inductionHypothesis distinctRest freshRest
          (Nat.succ_le_succ (Nat.not_lt.1 full))]
        simp [Nat.add_right_comm, Nat.add_assoc]

/-- A chain of different objects below the outermost stream can be entered exactly if it is not
longer than the limit. -/
theorem enterAll_outermost {chain : List ObjectId} (distinct : chain.Nodup) :
    enterAll limit (none :: chain.map some) [] =
      if chain.length ≤ limit then .ok ((chain.map some).reverse ++ [none])
      else .error (.nesting limit) := by
  have entered : Trail.enter limit none [] = .ok [none] :=
    enter_eq_ok.2 ⟨by simp, Nat.zero_le _, rfl⟩
  rw [enterAll, entered, Limited.ok_bind,
    enterAll_chain distinct (by simp) (Nat.succ_le_succ (Nat.zero_le _))]
  simp [Nat.add_comm]

end Trail

namespace Change

variable {ι σ τ α β : Type}

open Classical in
/-- Nested steps, one of which fails in one state. -/
noncomputable def refusing (nested : ι → Change σ α) (index : ι) (reached : σ) (fault : Fault)
    (left : σ) : ι → Change σ α :=
  fun other state =>
    if other = index ∧ state = reached then .error fault left else nested other state

/-- Whether a step comes to a nested one in a state: it fails as that one does, however that may
fail. -/
def ComesTo (step : (ι → Change σ α) → Change τ β) (nested : ι → Change σ α) (state : τ) (index : ι)
    (reached : σ) : Prop :=
  ∀ fault left, (step (refusing nested index reached fault left)).Fails state fault

variable {step : (ι → Change σ α) → Change τ β} {nested : ι → Change σ α} {state : τ} {index : ι}
variable {reached : σ}

/-- The nested step fails. -/
theorem refusing_self (fault : Fault) (left : σ) :
    refusing nested index reached fault left index reached = .error fault left := by
  simp [refusing]

/-- A step that comes to a nested one that fails does so, too. -/
theorem ComesTo.fails (comes : ComesTo step nested state index reached) {fault : Fault}
    (failed : (nested index).Fails reached fault) : (step nested).Fails state fault := by
  obtain ⟨left, failed⟩ := failed
  have same : refusing nested index reached fault left = nested := by
    funext other state
    unfold refusing
    split
    · rename_i isReached
      rw [isReached.1, isReached.2, failed]
    · rfl
  simpa only [same] using comes fault left

/-- What nested steps keep, and need to be known by, holds where a step comes to one of them. -/
theorem ComesTo.holds {holds : σ → Prop} {gives : α → Prop}
    (comes : ComesTo step nested state index reached)
    (keeps : ∀ index state, Keeps holds gives (nested index) state)
    (alike : ∀ other : ι → Change σ α,
      (∀ index state, Alike holds gives (nested index) (other index) state) →
        step nested state = step other state) : holds reached := by
  by_contra notHeld
  have same (fault : Fault) (left : σ) :
      step nested state = step (refusing nested index reached fault left) state := by
    apply alike
    intro other state held
    have isOther : ¬(other = index ∧ state = reached) := fun isReached =>
      notHeld (isReached.2 ▸ held)
    exact ⟨by simp [refusing, isOther], (keeps other state held).2⟩
  obtain ⟨_, failed⟩ := comes (.nesting 0) reached
  obtain ⟨_, failedToo⟩ := comes (.nesting 1) reached
  rw [← same] at failed failedToo
  simpa using failed.symm.trans failedToo

end Change

open Change

/-- Content that is walked stream by stream, below a trail. -/
structure Nesting (ι σ α : Type) where
  /-- The object that a stream is, if it is one. -/
  location : ι → Option ObjectId
  trail : σ → Trail
  limit : σ → Nat
  /-- The state with another trail. -/
  enter : Trail → σ → σ
  /-- The walk inside a stream, given that through those that it comes to. -/
  walk : (ι → Change σ α) → ι → Change σ α
  /-- The walk through a stream in which streams are nested to less than the given depth. -/
  run : Nat → ι → Change σ α

namespace Nesting

variable {ι σ α β : Type} {nesting : Nesting ι σ α}

/-- What the trail becomes when a stream is entered. -/
def guard (nesting : Nesting ι σ α) (index : ι) (state : σ) : Outcome Trail :=
  (nesting.trail state).enter (nesting.limit state) (nesting.location index)

/-- Whether two states have the same trail and limit. -/
def Level (nesting : Nesting ι σ α) (state other : σ) : Prop :=
  nesting.trail other = nesting.trail state ∧ nesting.limit other = nesting.limit state

/-- Whether streams are entered as the trail allows, and otherwise fail. -/
structure Lawful (nesting : Nesting ι σ α) : Prop where
  trail_enter trail state : nesting.trail (nesting.enter trail state) = trail
  limit_enter trail state : nesting.limit (nesting.enter trail state) = nesting.limit state
  barred depth index state fault : nesting.guard index state = .error fault →
    (nesting.run (depth + 1) index).Fails state fault
  entered depth index state inside fault : nesting.guard index state = .ok inside →
    (nesting.walk (nesting.run depth) index).Fails (nesting.enter inside state) fault →
      (nesting.run (depth + 1) index).Fails state fault
  /-- A walk comes to streams with the trail that it began with. -/
  calls depth index state other reached :
    ComesTo (nesting.walk · index) (nesting.run depth) state other reached →
      nesting.Level state reached

/-- Whether a walk through a stream comes to another one in a state, with the streams that enclose
it, the innermost first, and the depth to which streams can be nested in it. -/
inductive Reaches (nesting : Nesting ι σ α) (levels : Nat) (first : ι) (start : σ) :
    Nat → Trail → ι → σ → Prop
  | first : Reaches nesting levels first start levels [] first start
  | nested {depth path index state inside other reached} :
      Reaches nesting levels first start (depth + 1) path index state →
      nesting.guard index state = .ok inside →
      ComesTo (nesting.walk · index) (nesting.run depth) (nesting.enter inside state) other
        reached →
      Reaches nesting levels first start depth (nesting.location index :: path) other reached

variable {levels depth : Nat} {first index : ι} {start state : σ} {path : Trail}

/-- Where a walk comes to a stream, the streams that enclose it are on the trail. -/
theorem Reaches.trail_eq (lawful : nesting.Lawful)
    (reaches : nesting.Reaches levels first start depth path index state) :
    nesting.trail state = path ++ nesting.trail start ∧
      nesting.limit state = nesting.limit start ∧ depth + path.length = levels := by
  induction reaches with
  | first => exact ⟨rfl, rfl, rfl⟩
  | nested reaches entered comes inductionHypothesis =>
      obtain ⟨sameTrail, sameLimit, sameDepth⟩ := inductionHypothesis
      obtain ⟨_, _, rfl⟩ := Trail.enter_eq_ok.1 entered
      obtain ⟨trailReached, limitReached⟩ := lawful.calls _ _ _ _ _ comes
      rw [lawful.trail_enter] at trailReached
      rw [lawful.limit_enter] at limitReached
      refine ⟨by rw [trailReached, sameTrail]; rfl, limitReached.trans sameLimit, ?_⟩
      rw [List.length_cons]
      omega

/-- Where a walk comes to a stream, the trail is sound if it was at first. -/
theorem Reaches.isSound (lawful : nesting.Lawful)
    (sound : (nesting.trail start).IsSound (nesting.limit start))
    (reaches : nesting.Reaches levels first start depth path index state) :
    (nesting.trail state).IsSound (nesting.limit state) := by
  induction reaches with
  | first => exact sound
  | nested reaches entered comes inductionHypothesis =>
      obtain ⟨trailReached, limitReached⟩ := lawful.calls _ _ _ _ _ comes
      rw [lawful.trail_enter] at trailReached
      rw [lawful.limit_enter] at limitReached
      rw [trailReached, limitReached]
      exact inductionHypothesis.enter entered

/-- A walk fails as the walk through a stream that it comes to. -/
theorem Reaches.fails (lawful : nesting.Lawful)
    (reaches : nesting.Reaches levels first start depth path index state) {fault : Fault}
    (failed : (nesting.run depth index).Fails state fault) :
    (nesting.run levels first).Fails start fault := by
  induction reaches with
  | first => exact failed
  | nested reaches entered comes inductionHypothesis =>
      exact inductionHypothesis (lawful.entered _ _ _ _ _ entered (comes.fails failed))

/-- Whether a change walks a stream below an exact and balanced guard: with the trail that it began
with when it ends, however it ends, and, wherever it comes to a stream, with the enclosing streams
on a sound trail, below which exactly those streams are entered that are not on it and for which it
has room. -/
structure IsExact (nesting : Nesting ι σ α) (first : ι) (start : σ) (change : Change σ β) :
    Prop where
  /-- The trail is left as it was. -/
  balanced : nesting.trail (change.outcome start).2 = nesting.trail start
  /-- The trail holds the enclosing streams. -/
  encloses depth path index state :
    nesting.Reaches (Trail.levels (nesting.limit start)) first start depth path index state →
      nesting.trail state = path ++ nesting.trail start
  /-- The trail names no object twice and is not too long. -/
  sound depth path index state :
    nesting.Reaches (Trail.levels (nesting.limit start)) first start depth path index state →
      (nesting.trail state).IsSound (nesting.limit start)
  /-- A stream that is on the trail is a fault. -/
  cyclic depth path index state target :
    nesting.Reaches (Trail.levels (nesting.limit start)) first start depth path index state →
      nesting.location index = some target → some target ∈ nesting.trail state →
        change.Fails start (.cyclic target)
  /-- Another one that is nested too deep is a fault. -/
  tooDeep depth path index state :
    nesting.Reaches (Trail.levels (nesting.limit start)) first start depth path index state →
      (∀ target ∈ nesting.location index, some target ∉ nesting.trail state) →
        nesting.limit start < (nesting.trail state).length →
          change.Fails start (.nesting (nesting.limit start))
  /-- Every other one is entered, and walked with a sound trail. -/
  passes depth path index state :
    nesting.Reaches (Trail.levels (nesting.limit start)) first start depth path index state →
      (∀ target ∈ nesting.location index, some target ∉ nesting.trail state) →
        (nesting.trail state).length ≤ nesting.limit start →
          nesting.guard index state = .ok (nesting.location index :: nesting.trail state) ∧
            Trail.IsSound (nesting.limit start) (nesting.location index :: nesting.trail state) ∧
              ∃ deeper, depth = deeper + 1

/-- A change that fails as a walk from the outermost stream does, and leaves the trail as it was, is
guarded exactly if the trail is sound at first. -/
theorem Lawful.isExact (lawful : nesting.Lawful) {change : Change σ β}
    (sound : (nesting.trail start).IsSound (nesting.limit start))
    (balanced : nesting.trail (change.outcome start).2 = nesting.trail start)
    (failsAs : ∀ fault, (nesting.run (Trail.levels (nesting.limit start)) first).Fails start fault →
      change.Fails start fault) :
    nesting.IsExact first start change := by
  have deep {depth : Nat} {path : Trail} {index : ι} {state : σ}
      (reaches :
        nesting.Reaches (Trail.levels (nesting.limit start)) first start depth path index state) :
      ∃ deeper, depth = deeper + 1 := by
    obtain ⟨sameTrail, sameLimit, levels⟩ := reaches.trail_eq lawful
    have bounded := (reaches.isSound lawful sound).bounded
    rw [sameTrail, sameLimit, List.length_append] at bounded
    rw [Trail.levels] at levels
    exact ⟨depth - 1, by omega⟩
  have barred {depth : Nat} {path : Trail} {index : ι} {state : σ} {fault : Fault}
      (reaches :
        nesting.Reaches (Trail.levels (nesting.limit start)) first start depth path index state)
      (isBarred : nesting.guard index state = .error fault) : change.Fails start fault := by
    obtain ⟨deeper, rfl⟩ := deep reaches
    exact failsAs fault (reaches.fails lawful (lawful.barred deeper index state fault isBarred))
  have limit_eq {depth : Nat} {path : Trail} {index : ι} {state : σ}
      (reaches :
        nesting.Reaches (Trail.levels (nesting.limit start)) first start depth path index state) :
      nesting.limit state = nesting.limit start := (reaches.trail_eq lawful).2.1
  constructor
  case balanced => exact balanced
  case encloses => exact fun _ _ _ _ reaches => (reaches.trail_eq lawful).1
  case sound => exact fun _ _ _ _ reaches => limit_eq reaches ▸ reaches.isSound lawful sound
  case cyclic =>
    intro depth path index state target reaches isTarget known
    refine barred reaches ?_
    rw [guard, isTarget, Trail.enter_of_mem known]
  case tooDeep =>
    intro depth path index state reaches fresh full
    refine barred reaches ?_
    rw [guard, limit_eq reaches, Trail.enter_of_full fresh full]
  case passes =>
    intro depth path index state reaches fresh room
    have entered : nesting.guard index state =
        .ok (nesting.location index :: nesting.trail state) := by
      rw [guard, limit_eq reaches]
      exact Trail.enter_eq_ok.2 ⟨fresh, room, rfl⟩
    refine ⟨entered, ?_, deep reaches⟩
    rw [← limit_eq reaches]
    exact (reaches.isSound lawful sound).enter entered

end Nesting
end Monochrome
