import Mathlib.Data.List.Basic

/-!
# Recursions within limits

A recursion that is counted down from a limit fails with a fault of its own at the end of the count.
What does not fail so is the same for every greater limit.
-/

namespace Monochrome

variable {ε α β : Type} {limit : ε}

namespace Limited

/-- Steps after a value go on with it. -/
@[simp] theorem ok_bind {value : α} {next : α → Except ε β} :
    ((.ok value : Except ε α) >>= next) = next value :=
  rfl

/-- Steps after a failure are not taken. -/
@[simp] theorem error_bind {fault : ε} {next : α → Except ε β} :
    ((.error fault : Except ε α) >>= next) = .error fault :=
  rfl

/-- Whether a step gives a value with a property if it succeeds, and does not fail for its limit. -/
def Gives (limit : ε) (step : Except ε α) (holds : α → Prop) : Prop :=
  match step with
  | .ok value => holds value
  | .error fault => fault ≠ limit

/-- A value is given if it has the property. -/
@[simp] theorem gives_ok {value : α} {holds : α → Prop} :
    Gives limit (.ok value) holds ↔ holds value :=
  Iff.rfl

/-- A failure gives no value. -/
@[simp] theorem gives_error {fault : ε} {holds : α → Prop} :
    Gives limit (.error fault : Except ε α) holds ↔ fault ≠ limit :=
  Iff.rfl

/-- Steps in sequence give what the others do after the value of the first. -/
theorem Gives.bind {first : Except ε α} {next : α → Except ε β} {holds : α → Prop}
    {after : β → Prop} (gives : Gives limit first holds)
    (rest : ∀ value, holds value → Gives limit (next value) after) :
    Gives limit (first >>= next) after := by
  cases first with
  | ok value => exact rest value gives
  | error fault => exact gives

/-- What a step gives has every weaker property. -/
theorem Gives.imp {step : Except ε α} {holds weaker : α → Prop} (gives : Gives limit step holds)
    (implies : ∀ value, holds value → weaker value) : Gives limit step weaker := by
  cases step with
  | ok value => exact implies value gives
  | error fault => exact gives

/-- A step that gives something does not fail for its limit. -/
theorem Gives.ne {step : Except ε α} {holds : α → Prop} (gives : Gives limit step holds) :
    step ≠ .error limit := by
  rintro rfl
  exact gives rfl

/-- Steps for the elements of a list give something if each of them does. -/
theorem gives_mapM {read : α → Except ε β} {list : List α}
    (each : ∀ element ∈ list, Gives limit (read element) fun _ => True) :
    Gives limit (list.mapM read) fun _ => True := by
  induction list with
  | nil => trivial
  | cons first rest inductionHypothesis =>
      rw [List.mapM_cons]
      refine (each first List.mem_cons_self).bind fun _ _ => ?_
      refine (inductionHypothesis fun element isElement => ?_).bind fun _ _ => trivial
      exact each element (List.mem_cons_of_mem _ isElement)

/-- Whether a step is the same as another one, unless it fails for its limit. -/
def UpTo (limit : ε) (first second : Except ε α) : Prop :=
  first ≠ .error limit → second = first

/-- A step is the same as itself. -/
theorem UpTo.refl (step : Except ε α) : UpTo limit step step :=
  fun _ => rfl

/-- Steps in sequence are the same as others if each of them is, unless one of them fails for the
limit. -/
theorem UpTo.bind {first second : Except ε α} {next other : α → Except ε β}
    (same : UpTo limit first second) (rest : ∀ value, UpTo limit (next value) (other value)) :
    UpTo limit (first >>= next) (second >>= other) := by
  intro settles
  cases first with
  | ok value =>
      rw [same (by simp)]
      exact rest value settles
  | error fault =>
      have isOther : (.error fault : Except ε α) ≠ .error limit := fun nested =>
        settles (congrArg _ (Except.error.inj nested))
      rw [same isOther]
      rfl

/-- Steps for the elements of a list are the same as others if each of them is, unless one of them
fails for the limit. -/
theorem UpTo.mapM {read other : α → Except ε β} {list : List α}
    (same : ∀ element, UpTo limit (read element) (other element)) :
    UpTo limit (list.mapM read) (list.mapM other) := by
  induction list with
  | nil => exact .refl _
  | cons first rest inductionHypothesis =>
      rw [List.mapM_cons, List.mapM_cons]
      exact (same first).bind fun _ => inductionHypothesis.bind fun _ => .refl _

/-- A recursion that succeeds within one limit does so within every other one, or passes it. -/
theorem eq_limit_or_ok {read : Nat → Except ε α}
    (more : ∀ {depth more}, depth ≤ more → UpTo limit (read depth) (read more)) {other : Nat}
    {value : α} (succeeded : read other = .ok value) (depth : Nat) :
    read depth = .error limit ∨ read depth = .ok value := by
  rcases Nat.le_total depth other with deeper | deeper
  · refine or_iff_not_imp_left.mpr fun settles => ?_
    rw [← more deeper settles, succeeded]
  · right
    rw [more deeper (by simp [succeeded]), succeeded]

end Limited
end Monochrome
