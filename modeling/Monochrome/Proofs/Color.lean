import Monochrome.Color

/-!
# Neutral colors are not visible

A color with three equal channels is not visible whatever the level is, be it infinite or no number:
the difference of a value and itself is zero, or no number, and neither is greater than a tolerance
that is not negative.
-/

namespace Monochrome

open Float.Model in
/-- The difference of a number and itself is zero, or no number. -/
theorem sub_self_unpacked (format : Float.Model.Format) (value : UnpackedFloat) :
    UnpackedFloat.sub format value value = .zero .positive ∨
      UnpackedFloat.sub format value value = .notANumber := by
  cases value with
  | notANumber => exact Or.inr rfl
  | infinity sign => cases sign <;> exact Or.inr rfl
  | zero sign => cases sign <;> exact Or.inl rfl
  | finite sign mantissa exponent positive =>
      refine Or.inl ?_
      obtain ⟨signed, least, isDifference⟩ : ∃ signed least,
          UnpackedFloat.sub format (.finite sign mantissa exponent positive)
            (.finite sign mantissa exponent positive) =
          UnpackedFloat.normalize format (signed - signed) least .positive := ⟨_, _, rfl⟩
      rw [isDifference, Int.sub_self]
      rfl

/-- The magnitude of the difference of a value and itself is zero, or no number. -/
theorem magnitude_sub_self (value : Float32) :
    (Scalar.magnitude (value - value)).toModel.unpack = .zero .positive ∨
      (Scalar.magnitude (value - value)).toModel.unpack = .notANumber := by
  obtain ⟨model⟩ := value
  show (Float32.Model.pack (Float32.Model.pack (Float.Model.UnpackedFloat.sub _ model.unpack
      model.unpack)).unpack.abs).unpack = _ ∨ (Float32.Model.pack (Float32.Model.pack
        (Float.Model.UnpackedFloat.sub _ model.unpack model.unpack)).unpack.abs).unpack = _
  rcases sub_self_unpacked Float.Model.Format.binary32 model.unpack with zero | none
  · rw [zero]
    exact Or.inl rfl
  · rw [none]
    exact Or.inr rfl

/-- Values are compared by the numbers that they are. -/
theorem less_eq (first second : Float32) :
    Scalar.less first second = first.toModel.unpack.lt second.toModel.unpack :=
  Bool.decide_eq_true

/-- Values are compared by the numbers that they are. -/
theorem atMost_eq (first second : Float32) :
    Scalar.atMost first second = first.toModel.unpack.le second.toModel.unpack :=
  Bool.decide_eq_true

/-- A tolerance that is not negative is not less than the difference of a value and itself. -/
theorem less_magnitude_sub_self {tolerance : Float32}
    (nonnegative : Scalar.atMost 0.0 tolerance = true) (value : Float32) :
    Scalar.less tolerance (Scalar.magnitude (value - value)) = false := by
  have zero : (0.0 : Float32).toModel.unpack = .zero .positive := rfl
  rw [atMost_eq, zero] at nonnegative
  rw [less_eq]
  generalize tolerance.toModel.unpack = bound at nonnegative ⊢
  rcases magnitude_sub_self value with same | same <;> rw [same]
  · cases bound with
    | infinity sign => cases sign <;> first | rfl | cases nonnegative
    | finite sign => cases sign <;> first | rfl | cases nonnegative
    | _ => rfl
  · cases bound <;> rfl

namespace Rgb

/-- A neutral color is not visible. -/
theorem isColored_neutral {tolerance : Float32}
    (nonnegative : Scalar.atMost 0.0 tolerance = true) (level : Float32) :
    (neutral level).isColored tolerance = false := by
  have invisible := less_magnitude_sub_self nonnegative level
  simp [isColored, neutral, invisible]

end Rgb
end Monochrome
