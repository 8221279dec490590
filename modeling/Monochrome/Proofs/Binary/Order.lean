import Mathlib.Data.Option.NAry
import Mathlib.Data.Prod.Lex
import Monochrome.Proofs.Color

/-!
# The order of machine numbers

Machine numbers are compared by their signs, then by their exponents and then by their mantissas.  So
each of them has a rank in a linear order, in which the two zeros are the same.  What is no number has
no rank, and compares with nothing.
-/

namespace Monochrome
open Float.Model

/-- The rank of a number: first on which side of zero it lies and whether it is finite, then how far
from zero it lies. -/
def rank? : UnpackedFloat → Option (Int ×ₗ Int ×ₗ Int)
  | .notANumber => none
  | .infinity .negative => some (toLex (-2, toLex (0, 0)))
  | .finite .negative mantissa exponent _ => some (toLex (-1, toLex (-exponent, -(mantissa : Int))))
  | .zero _ => some (toLex (0, toLex (0, 0)))
  | .finite .positive mantissa exponent _ => some (toLex (1, toLex (exponent, (mantissa : Int))))
  | .infinity .positive => some (toLex (2, toLex (0, 0)))

/-- Negated integers compare the other way around. -/
theorem compare_neg (first second : Int) :
    compare (-first) (-second) = (compare first second).swap := by
  rw [Int.compare_swap]
  simp only [Int.compare_eq_ite_lt, Int.neg_lt_neg_iff]

/-- Natural numbers compare as integers do. -/
theorem compare_natCast (first second : Nat) :
    compare (first : Int) (second : Int) = compare first second := by
  simp only [Int.compare_eq_ite_lt, Nat.compare_eq_ite_lt, Int.ofNat_lt]

/-- Numbers compare as their ranks do. -/
theorem compare_eq (first second : UnpackedFloat) :
    first.compare second = Option.map₂ compare (rank? first) (rank? second) := by
  have positive (exponent power : Int) (mantissa other : Nat) :
      (compare exponent power).then (compare mantissa other) =
        (compare exponent power).then (compare (mantissa : Int) (other : Int)) := by
    rw [compare_natCast]
  have negative (exponent power : Int) (mantissa other : Nat) :
      ((compare exponent power).then (compare mantissa other)).swap =
        (compare (-exponent) (-power)).then (compare (-(mantissa : Int)) (-(other : Int))) := by
    rw [compare_neg, compare_neg, compare_natCast, Ordering.swap_then]
  rcases first with (_ | _) | _ | (_ | _) | ⟨_ | _, mantissa, exponent, _⟩ <;>
    rcases second with (_ | _) | _ | (_ | _) | ⟨_ | _, other, power, _⟩ <;>
      first
        | rfl
        | exact congrArg some (positive exponent power mantissa other)
        | exact congrArg some (negative exponent power mantissa other)

/-- A number is less than another one if its rank is. -/
theorem lt_eq_true {first second : UnpackedFloat} :
    first.lt second = true ↔ ∃ low ∈ rank? first, ∃ high ∈ rank? second, low < high := by
  rw [UnpackedFloat.lt, compare_eq, beq_iff_eq, Option.map₂_eq_some_iff]
  simp only [compare_lt_iff_lt]
  grind

/-- A number is at most another one if its rank is. -/
theorem le_eq_true {first second : UnpackedFloat} :
    first.le second = true ↔ ∃ low ∈ rank? first, ∃ high ∈ rank? second, low ≤ high := by
  rw [UnpackedFloat.le, compare_eq, Option.any_eq_true]
  simp only [Option.map₂_eq_some_iff, ← compare_le_iff_le, Ordering.isLE_iff_ne_gt]
  grind

/-- What exceeds a value exceeds every value that is at most that. -/
theorem less_of_atMost {first second third : Float32} (atMost : Scalar.atMost first second = true)
    (less : Scalar.less second third = true) : Scalar.less first third = true := by
  rw [atMost_eq, le_eq_true] at atMost
  rw [less_eq, lt_eq_true] at less ⊢
  obtain ⟨low, isLow, middle, isMiddle, atMost⟩ := atMost
  obtain ⟨same, isSame, high, isHigh, less⟩ := less
  obtain rfl := Option.mem_unique isMiddle isSame
  exact ⟨low, isLow, high, isHigh, lt_of_le_of_lt atMost less⟩

end Monochrome
