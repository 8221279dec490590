import Monochrome.Proofs.Binary.Patterns

/-!
# Integers in binary formats

The number nearest to an integer is an integer, and the integer itself where it has no more digits
than a mantissa.
-/

namespace Monochrome
namespace Format

variable {format : Format} {number mantissa field : Nat}

/-! ## Reading patterns -/

/-- A pattern with an exponent between the least and the greatest is read as a normal number. -/
theorem read_normal (lower : 2 ^ format.fractionBits ≤ mantissa)
    (upper : mantissa < 2 ^ (format.fractionBits + 1)) (bounded : field + 2 < 2 ^ format.exponentBits) :
    format.read (field * 2 ^ format.fractionBits + mantissa) =
      .finite false mantissa (format.minExponent + field) := by
  obtain ⟨fraction, rfl⟩ := Nat.exists_eq_add_of_le lower
  have small : fraction < 2 ^ format.fractionBits := by
    rw [Nat.pow_succ] at upper
    omega
  have isSum : field * 2 ^ format.fractionBits + (2 ^ format.fractionBits + fraction) =
      fraction + (field + 1) * 2 ^ format.fractionBits := by
    rw [Nat.add_mul]
    omega
  have positive : 0 < 2 ^ format.fractionBits := Nat.two_pow_pos _
  have belowSign : fraction + (field + 1) * 2 ^ format.fractionBits < format.signBit := by
    calc fraction + (field + 1) * 2 ^ format.fractionBits
        < (field + 2) * 2 ^ format.fractionBits := by rw [Nat.add_mul, Nat.add_mul]; omega
      _ ≤ 2 ^ format.exponentBits * 2 ^ format.fractionBits :=
          Nat.mul_le_mul_right _ (Nat.le_of_lt bounded)
      _ = format.signBit := by rw [signBit, Nat.pow_add, Nat.mul_comm]
  have isField : (fraction + (field + 1) * 2 ^ format.fractionBits) / 2 ^ format.fractionBits =
      field + 1 := by
    rw [Nat.add_mul_div_right _ _ positive, Nat.div_eq_of_lt small, Nat.zero_add]
  have isFraction : (fraction + (field + 1) * 2 ^ format.fractionBits) % 2 ^ format.fractionBits =
      fraction := by
    rw [Nat.add_mul_mod_self_right, Nat.mod_eq_of_lt small]
  rw [isSum, read, Nat.mod_eq_of_lt belowSign, isField, isFraction, if_neg (by omega),
    if_neg (by omega), decide_eq_false (Nat.not_le.mpr belowSign)]
  congr 1
  omega

/-- The pattern of infinity is read as infinity. -/
theorem read_infinity : format.read format.infinity = .infinite false := by
  have positive : 0 < 2 ^ format.fractionBits := Nat.two_pow_pos _
  have several := Nat.two_pow_pos format.exponentBits
  have belowSign : format.infinity < format.signBit := by
    rw [infinity, signBit, Nat.pow_add, Nat.mul_comm]
    exact Nat.mul_lt_mul_of_pos_left (by omega) positive
  rw [read, Nat.mod_eq_of_lt belowSign, infinity, Nat.mul_div_cancel _ positive, if_pos rfl,
    Nat.mul_mod_left, if_pos rfl, ← infinity, decide_eq_false (Nat.not_le.mpr belowSign)]

/-- What a rounded mantissa with its exponent is read as: itself, or the next power of two where
rounding reached that, or infinity where the exponent is too great. -/
theorem read_min (lower : 2 ^ format.fractionBits ≤ mantissa)
    (upper : mantissa ≤ 2 ^ (format.fractionBits + 1)) :
    (mantissa < 2 ^ (format.fractionBits + 1) ∧
      format.read (min (field * 2 ^ format.fractionBits + mantissa) format.infinity) =
        .finite false mantissa (format.minExponent + field)) ∨
    (mantissa = 2 ^ (format.fractionBits + 1) ∧
      format.read (min (field * 2 ^ format.fractionBits + mantissa) format.infinity) =
        .finite false (2 ^ format.fractionBits) (format.minExponent + (field + 1 : Nat))) ∨
    (2 ^ format.exponentBits ≤ field + 3 ∧
      format.read (min (field * 2 ^ format.fractionBits + mantissa) format.infinity) =
        .infinite false) := by
  have several := Nat.two_pow_pos format.exponentBits
  have positive : 0 < 2 ^ format.fractionBits := Nat.two_pow_pos _
  have step (count : Nat) :
      (count + 1) * 2 ^ format.fractionBits = count * 2 ^ format.fractionBits +
        2 ^ format.fractionBits := Nat.succ_mul _ _
  have overflow (count : Nat) (great : 2 ^ format.exponentBits - 1 ≤ count) :
      format.infinity ≤ count * 2 ^ format.fractionBits := Nat.mul_le_mul_right _ great
  have inside (count : Nat) (small : count ≤ 2 ^ format.exponentBits - 1) :
      count * 2 ^ format.fractionBits ≤ format.infinity := Nat.mul_le_mul_right _ small
  rcases Nat.lt_or_eq_of_le upper with below | rounded
  · by_cases bounded : field + 2 < 2 ^ format.exponentBits
    · have fits := inside (field + 2) (by omega)
      rw [Nat.pow_succ] at below
      refine .inl ⟨by rw [Nat.pow_succ]; exact below, ?_⟩
      rw [Nat.min_eq_left (by rw [step, step] at fits; omega)]
      exact read_normal lower (by rw [Nat.pow_succ]; exact below) bounded
    · have above := overflow (field + 1) (by omega)
      refine .inr (.inr ⟨by omega, ?_⟩)
      rw [Nat.min_eq_right (by rw [step] at above; omega), read_infinity]
  · have isNext : field * 2 ^ format.fractionBits + mantissa =
        (field + 1) * 2 ^ format.fractionBits + 2 ^ format.fractionBits := by
      rw [rounded, Nat.pow_succ, step]
      omega
    by_cases bounded : field + 3 < 2 ^ format.exponentBits
    · have fits := inside (field + 2) (by omega)
      refine .inr (.inl ⟨rounded, ?_⟩)
      rw [isNext, Nat.min_eq_left (by rw [step] at fits; omega)]
      exact read_normal (Nat.le_refl _) (by rw [Nat.pow_succ]; omega) (by omega)
    · have above := overflow (field + 2) (by omega)
      refine .inr (.inr ⟨by omega, ?_⟩)
      rw [isNext, Nat.min_eq_right (by rw [step] at above; omega), read_infinity]

/-! ## The number nearest to an integer -/

/-- A multiple is rounded to its quotient. -/
theorem roundHalfEven_mul {denominator : Nat} (positive : 0 < denominator) (quotient : Nat) :
    roundHalfEven (quotient * denominator) denominator = quotient := by
  rw [roundHalfEven, Nat.mul_mod_left, if_pos (by omega), Nat.mul_div_cancel _ positive]

/-- A rounded quotient is the integer part of the quotient or the next one. -/
theorem roundHalfEven_bounds (numerator denominator : Nat) :
    numerator / denominator ≤ roundHalfEven numerator denominator ∧
      roundHalfEven numerator denominator ≤ numerator / denominator + 1 := by
  unfold roundHalfEven
  dsimp only
  split
  · omega
  · split <;> omega

/-- The pattern nearest to an integer: its leading bits, rounded, under the exponent that they
have. -/
theorem nearest_one (nonzero : number ≠ 0) (wide : 2 ≤ 2 ^ (format.exponentBits - 1)) :
    format.nearest number 1 =
      min ((number.log2 + 2 ^ (format.exponentBits - 1) - 2) * 2 ^ format.fractionBits +
        roundHalfEven (number * 2 ^ (format.fractionBits - number.log2))
          (2 ^ (number.log2 - format.fractionBits))) format.infinity := by
  have logOne : (1 : Nat).log2 = 0 := by decide
  have shiftDown : (-((number.log2 : Int) - (1 : Nat).log2 - format.fractionBits)).toNat =
      format.fractionBits - number.log2 := by
    rw [logOne]
    omega
  have shiftUp : ((number.log2 : Int) - (1 : Nat).log2 - format.fractionBits).toNat =
      number.log2 - format.fractionBits := by
    rw [logOne]
    omega
  have notTooHigh : ¬number * 2 ^ (format.fractionBits - number.log2) <
      1 * 2 ^ (number.log2 - format.fractionBits) * 2 ^ format.fractionBits := by
    have leading : 2 ^ number.log2 ≤ number := Nat.log2_self_le nonzero
    rw [Nat.one_mul, ← Nat.pow_add, Nat.not_lt]
    calc 2 ^ (number.log2 - format.fractionBits + format.fractionBits)
        = 2 ^ number.log2 * 2 ^ (format.fractionBits - number.log2) := by
          rw [← Nat.pow_add]
          congr 1
          omega
      _ ≤ number * 2 ^ (format.fractionBits - number.log2) := Nat.mul_le_mul_right _ leading
  have least : format.minExponent ≤
      (number.log2 : Int) - (1 : Nat).log2 - format.fractionBits := by
    rw [logOne, minExponent]
    omega
  have field : ((number.log2 : Int) - (1 : Nat).log2 - format.fractionBits -
      format.minExponent).toNat = number.log2 + 2 ^ (format.exponentBits - 1) - 2 := by
    rw [logOne, minExponent]
    omega
  rw [nearest, if_neg nonzero]
  dsimp only
  rw [shiftDown, shiftUp, decide_eq_false notTooHigh, if_neg (by decide), Int.max_eq_left least,
    shiftDown, shiftUp, field, Nat.one_mul]

/-- The leading bits of an integer, as many as a mantissa has. -/
theorem mantissa_bounds (nonzero : number ≠ 0) :
    2 ^ format.fractionBits ≤ number * 2 ^ (format.fractionBits - number.log2) /
        2 ^ (number.log2 - format.fractionBits) ∧
      number * 2 ^ (format.fractionBits - number.log2) /
        2 ^ (number.log2 - format.fractionBits) < 2 ^ (format.fractionBits + 1) := by
  have lower : 2 ^ number.log2 ≤ number := Nat.log2_self_le nonzero
  have upper : number < 2 ^ (number.log2 + 1) := Nat.lt_log2_self
  constructor
  · rw [Nat.le_div_iff_mul_le (Nat.two_pow_pos _), ← Nat.pow_add]
    calc 2 ^ (format.fractionBits + (number.log2 - format.fractionBits))
        = 2 ^ number.log2 * 2 ^ (format.fractionBits - number.log2) := by
          rw [← Nat.pow_add]
          congr 1
          omega
      _ ≤ number * 2 ^ (format.fractionBits - number.log2) := Nat.mul_le_mul_right _ lower
  · refine Nat.div_lt_of_lt_mul ?_
    calc number * 2 ^ (format.fractionBits - number.log2)
        < 2 ^ (number.log2 + 1) * 2 ^ (format.fractionBits - number.log2) :=
          Nat.mul_lt_mul_of_pos_right upper (Nat.two_pow_pos _)
      _ = 2 ^ (number.log2 - format.fractionBits) * 2 ^ (format.fractionBits + 1) := by
          rw [← Nat.pow_add, ← Nat.pow_add]
          congr 1
          omega

/-- The exponent of the leading bits of an integer. -/
theorem minExponent_add_field (wide : 2 ≤ 2 ^ (format.exponentBits - 1)) :
    format.minExponent + (number.log2 + 2 ^ (format.exponentBits - 1) - 2 : Nat) =
      (number.log2 : Int) - format.fractionBits := by
  rw [minExponent]
  omega

/-- An integer with no more digits than a mantissa is not rounded. -/
theorem roundHalfEven_short (short : number.log2 ≤ format.fractionBits) :
    roundHalfEven (number * 2 ^ (format.fractionBits - number.log2))
        (2 ^ (number.log2 - format.fractionBits)) =
      number * 2 ^ (format.fractionBits - number.log2) := by
  have exact := roundHalfEven_mul Nat.one_pos (number * 2 ^ (format.fractionBits - number.log2))
  rw [Nat.mul_one] at exact
  rw [Nat.sub_eq_zero_of_le short, Nat.pow_zero, exact]

/-- The number nearest to an integer is an integer or infinite. -/
theorem isInteger_nearest_one (number : Nat) (wide : 2 ≤ 2 ^ (format.exponentBits - 1)) :
    (format.read (format.nearest number 1)).isInteger = true ∨
      format.read (format.nearest number 1) = .infinite false := by
  by_cases zero : number = 0
  · have several : 2 ≤ 2 ^ format.exponentBits :=
      Nat.le_trans wide (Nat.pow_le_pow_right (by decide) (Nat.sub_le _ _))
    have isZero : format.read (format.nearest number 1) = .finite false 0 format.minExponent := by
      rw [nearest, if_pos zero, read, signBit]
      simp only [Nat.zero_mod, Nat.zero_div]
      rw [if_neg (by omega), if_true, decide_eq_false (Nat.not_le.mpr (Nat.two_pow_pos _))]
    refine .inl ?_
    rw [isZero]
    simp [Reading.isInteger]
  obtain ⟨lower, upper⟩ := @mantissa_bounds format number zero
  have bounds := roundHalfEven_bounds (number * 2 ^ (format.fractionBits - number.log2))
    (2 ^ (number.log2 - format.fractionBits))
  have isPattern := @read_min format _ (number.log2 + 2 ^ (format.exponentBits - 1) - 2)
    (Nat.le_trans lower bounds.1) (by omega)
  rw [← nearest_one zero wide, Int.natCast_add, ← Int.add_assoc,
    minExponent_add_field wide] at isPattern
  rcases isPattern with ⟨-, isRead⟩ | ⟨rounded, isRead⟩ | ⟨-, isRead⟩
  · refine .inl ?_
    rw [isRead, Reading.isInteger, beq_iff_eq]
    by_cases short : number.log2 ≤ format.fractionBits
    · rw [roundHalfEven_short short,
        show (-((number.log2 : Int) - format.fractionBits)).toNat =
          format.fractionBits - number.log2 by omega, Nat.mul_right_comm, Nat.mul_mod_left]
    · rw [show (-((number.log2 : Int) - format.fractionBits)).toNat = 0 by omega, Nat.pow_zero,
        Nat.mod_one]
  · have long : ¬number.log2 ≤ format.fractionBits := by
      intro short
      rw [roundHalfEven_short short] at rounded
      rw [Nat.sub_eq_zero_of_le short, Nat.pow_zero, Nat.div_one] at upper
      omega
    refine .inl ?_
    rw [isRead, Reading.isInteger, beq_iff_eq,
      show (-((number.log2 : Int) - format.fractionBits + (1 : Nat))).toNat = 0 by omega,
      Nat.pow_zero, Nat.mod_one]
  · exact .inr isRead

/-- Whether an integer has no more digits than a mantissa, but for zeros at the end. -/
def Holds (format : Format) (number : Nat) : Prop :=
  number.log2 + 1 < 2 ^ (format.exponentBits - 1) ∧
    2 ^ (number.log2 - format.fractionBits) ∣ number

/-- An integer that a format holds is read back. -/
theorem Holds.read_nearest (holds : format.Holds number) (nonzero : number ≠ 0)
    (wide : 2 ≤ 2 ^ (format.exponentBits - 1)) :
    ∃ mantissa, format.read (format.nearest number 1) =
        .finite false mantissa ((number.log2 : Int) - format.fractionBits) ∧
      2 ^ format.fractionBits ≤ mantissa ∧
      mantissa * 2 ^ (number.log2 - format.fractionBits) =
        number * 2 ^ (format.fractionBits - number.log2) := by
  obtain ⟨small, divides⟩ := holds
  obtain ⟨quotient, isMultiple⟩ := Nat.dvd_mul_right_of_dvd divides
    (2 ^ (format.fractionBits - number.log2))
  rw [Nat.mul_comm (2 ^ _)] at isMultiple
  obtain ⟨lower, upper⟩ := @mantissa_bounds format number nonzero
  rw [isMultiple, Nat.mul_div_cancel _ (Nat.two_pow_pos _)] at lower upper
  have isPattern := @read_min format _ (number.log2 + 2 ^ (format.exponentBits - 1) - 2)
    lower (Nat.le_of_lt upper)
  have isRounded := roundHalfEven_mul (Nat.two_pow_pos (number.log2 - format.fractionBits)) quotient
  rw [← isMultiple] at isRounded
  rw [← isRounded, ← nearest_one nonzero wide, minExponent_add_field wide, isRounded] at isPattern
  refine ⟨quotient, ?_, lower, isMultiple.symm⟩
  rcases isPattern with ⟨-, isRead⟩ | ⟨rounded, -⟩ | ⟨great, -⟩
  · exact isRead
  · omega
  · have someBits : format.exponentBits - 1 ≠ 0 := by
      intro none
      rw [none] at wide
      omega
    have halves : 2 ^ format.exponentBits = 2 ^ (format.exponentBits - 1) * 2 := by
      rw [← Nat.pow_succ]
      congr 1
      omega
    omega

end Format

namespace Reading

/-- The magnitude of an integer is the integer, however it is rounded. -/
theorem roundMagnitude_eq {rounding : IntegerRounding} {negative : Bool} {mantissa : Nat}
    {exponent : Int} (number : Nat)
    (same : mantissa * 2 ^ exponent.toNat = number * 2 ^ (-exponent).toNat) :
    roundMagnitude rounding negative mantissa exponent = number := by
  have positive : 0 < 2 ^ (-exponent).toNat := Nat.two_pow_pos _
  unfold roundMagnitude
  rw [same]
  simp only [Nat.mul_div_cancel _ positive, Nat.mul_mod_left]
  cases rounding <;> simp

end Reading
end Monochrome
