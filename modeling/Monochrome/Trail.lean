import Monochrome.Object.Access

/-!
# Trails

While content is walked, the forms and patterns that enclose it are kept in a trail.  One that is
on the trail already cannot be entered, and neither can one that is nested too deep.
-/

namespace Monochrome

/-- The streams that are being walked, the innermost first, by their numbers if they have
some. -/
abbrev Trail :=
  List (Option ObjectId)

namespace Trail

/-- The trail after entering a stream.  Below the outermost stream, at most the given number of
streams can be nested. -/
def enter (limit : Nat) (location : Option ObjectId) (trail : Trail) : Outcome Trail :=
  match location with
  | some target =>
    if trail.contains (some target) then .error (.cyclic target) else push
  | none => push
where
  /-- The trail with one stream more. -/
  push : Outcome Trail :=
    if limit < trail.length then .error (.nesting limit) else .ok (location :: trail)

/-- The trail after leaving the innermost stream. -/
def leave (trail : Trail) : Trail :=
  trail.tail

variable {limit : Nat} {location : Option ObjectId} {trail inside : Trail}

/-- A stream is entered if it is not on the trail, which has room for it. -/
theorem enter_eq_ok :
    trail.enter limit location = .ok inside ↔
      (∀ target ∈ location, some target ∉ trail) ∧ trail.length ≤ limit ∧
        inside = location :: trail := by
  have push_eq_ok : enter.push limit location trail = .ok inside ↔
      trail.length ≤ limit ∧ inside = location :: trail := by
    unfold enter.push
    split
    · rename_i full
      exact ⟨(by rintro ⟨⟩), fun room => absurd room.1 (Nat.not_le.2 full)⟩
    · rename_i room
      exact ⟨fun done => ⟨Nat.not_lt.1 room, (Except.ok.inj done).symm⟩,
        fun entered => congrArg Except.ok entered.2.symm⟩
  cases location with
  | none => simpa [enter] using push_eq_ok
  | some target =>
      by_cases known : some target ∈ trail
      · simp [enter, known]
      · simpa [enter, known] using push_eq_ok

/-- The trail before a stream was entered is that after leaving it. -/
theorem leave_of_enter (entered : trail.enter limit location = .ok inside) :
    inside.leave = trail := by
  obtain ⟨_, _, rfl⟩ := enter_eq_ok.1 entered
  rfl

/-- The number of streams that can be on a trail, and one more, which cannot be entered. -/
def levels (limit : Nat) : Nat :=
  limit + 2

end Trail
end Monochrome
