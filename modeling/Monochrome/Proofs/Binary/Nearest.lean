import Mathlib.Algebra.Order.Field.Power
import Mathlib.Data.Rat.Floor
import Mathlib.Tactic.FieldSimp
import Mathlib.Tactic.Linarith
import Mathlib.Tactic.NormNum
import Mathlib.Tactic.Positivity
import Mathlib.Tactic.Ring
import Monochrome.Proofs.Binary.Integers

/-!
# Numbers that round to a pattern

A quotient rounds to a number of a format if it lies in an interval around it: up to half of a unit on
both sides, but for a power of two, below which the units are half as great.  The ends of the interval
belong to it if the mantissa is even.  Here the pattern nearest to a quotient in the interval is shown to
be that of the number, whichever exponent the quotient itself has.
-/

namespace Monochrome

/-! ## Intervals -/

/-- Whether a value lies in an interval, to which the ends may belong. -/
def Within (low high : ℚ) (closed : Prop) (value : ℚ) : Prop :=
  (low ≤ value ∧ value ≤ high) ∧ (closed ∨ (low < value ∧ value < high))

namespace Within

variable {low high value : ℚ} {closed : Prop}

/-- A value inside of an interval lies in it. -/
theorem of_lt (above : low < value) (below : value < high) : Within low high closed value :=
  ⟨⟨above.le, below.le⟩, Or.inr ⟨above, below⟩⟩

/-- A value in an interval lies in one that reaches lower. -/
theorem of_le_low {lower : ℚ} (reaches : lower ≤ low) (within : Within low high closed value) :
    Within lower high closed value :=
  ⟨⟨reaches.trans within.1.1, within.1.2⟩,
    within.2.imp_right fun strict => ⟨reaches.trans_lt strict.1, strict.2⟩⟩

/-- A value lies in an interval if it does in another unit. -/
theorem div_iff {unit : ℚ} (positive : 0 < unit) :
    Within low high closed (value / unit) ↔ Within (low * unit) (high * unit) closed value := by
  rw [Within, Within, le_div_iff₀ positive, div_le_iff₀ positive, lt_div_iff₀ positive,
    div_lt_iff₀ positive]

end Within

/-! ## Powers with integer exponents -/

/-- A power with an integer exponent is a quotient of powers of which one is one. -/
theorem zpow_eq_div {base : ℚ} (nonzero : base ≠ 0) (exponent : Int) :
    base ^ exponent = base ^ exponent.toNat / base ^ (-exponent).toNat := by
  rw [← zpow_natCast, ← zpow_natCast, ← zpow_sub₀ nonzero, Int.toNat_sub_toNat_neg]

/-- Scaling both parts of a quotient divides it by a power of two. -/
theorem scaled_div (numerator denominator : Nat) (exponent : Int) :
    ((numerator * 2 ^ (-exponent).toNat : Nat) : ℚ) / (denominator * 2 ^ exponent.toNat : Nat) =
      numerator / denominator / 2 ^ exponent := by
  rw [zpow_eq_div two_ne_zero]
  push_cast
  rcases Nat.eq_zero_or_pos denominator with rfl | positive
  · simp
  · field_simp

namespace Format

variable {format : Format} {numerator denominator mantissa : Nat} {exponent : Int}

/-! ## Rounding to an integer -/

/-- A quotient is rounded to the integer from which it is not farther than a half; from an odd integer it
is less far. -/
theorem roundHalfEven_eq_of_le {quotient : Nat} (positive : 0 < denominator)
    (low : 2 * quotient * denominator ≤ 2 * numerator + denominator)
    (high : 2 * numerator ≤ 2 * quotient * denominator + denominator)
    (ties : quotient % 2 = 0 ∨ (2 * quotient * denominator < 2 * numerator + denominator ∧
      2 * numerator < 2 * quotient * denominator + denominator)) :
    roundHalfEven numerator denominator = quotient := by
  have parts := Nat.div_add_mod numerator denominator
  have small := Nat.mod_lt numerator positive
  rw [roundHalfEven]
  generalize numerator / denominator = whole at parts ⊢
  generalize numerator % denominator = remainder at parts small ⊢
  subst parts
  have notBelow : whole ≤ quotient := by
    by_contra below
    have room := Nat.mul_le_mul_left denominator (Nat.succ_le_of_lt (Nat.lt_of_not_le below))
    nlinarith
  have notAbove : quotient ≤ whole + 1 := by
    by_contra above
    have room := Nat.mul_le_mul_left denominator (Nat.succ_le_of_lt (Nat.lt_of_not_le above))
    nlinarith
  obtain rfl | rfl : quotient = whole ∨ quotient = whole + 1 := by omega
  · have atMost : 2 * remainder ≤ denominator := by nlinarith
    split
    · rfl
    rcases ties with even | ⟨-, less⟩
    · rw [if_neg (by omega), even, Nat.add_zero]
    · exact absurd (show 2 * remainder < denominator by nlinarith) (by assumption)
  · have atLeast : denominator ≤ 2 * remainder := by nlinarith
    rw [if_neg (by omega)]
    split
    · rfl
    rcases ties with even | ⟨greater, -⟩
    · omega
    · exact absurd (show denominator < 2 * remainder by nlinarith) (by assumption)

/-- A quotient is rounded to the integer from which it is not farther than a half; from an odd integer it
is less far. -/
theorem roundHalfEven_eq {quotient : Nat} (positive : 0 < denominator)
    (within : Within (quotient - 1 / 2) (quotient + 1 / 2) (quotient % 2 = 0)
      (numerator / denominator)) :
    roundHalfEven numerator denominator = quotient := by
  obtain ⟨⟨low, high⟩, ties⟩ := (Within.div_iff (Nat.cast_pos.2 positive)).1 within
  refine roundHalfEven_eq_of_le positive ?_ ?_ (ties.imp_right fun strict => ⟨?_, ?_⟩)
  · exact_mod_cast (by linarith : (2 * quotient * denominator : ℚ) ≤ 2 * numerator + denominator)
  · exact_mod_cast (by linarith : (2 * numerator : ℚ) ≤ 2 * quotient * denominator + denominator)
  · exact_mod_cast (by linarith [strict.1] :
      (2 * quotient * denominator : ℚ) < 2 * numerator + denominator)
  · exact_mod_cast (by linarith [strict.2] :
      (2 * numerator : ℚ) < 2 * quotient * denominator + denominator)

/-! ## The exponent of a quotient -/

/-- The exponent that the leading bits of a quotient have, from the lengths of its parts. -/
def leadingExponent (format : Format) (numerator denominator : Nat) : Int :=
  let estimate : Int := numerator.log2 - (denominator.log2 : Int) - format.fractionBits
  if numerator * 2 ^ (-estimate).toNat < denominator * 2 ^ estimate.toNat * 2 ^ format.fractionBits then
    estimate - 1
  else estimate

/-- A natural number lies between two powers of two. -/
theorem log2_bounds {number : Nat} (nonzero : number ≠ 0) :
    (2 : ℚ) ^ (number.log2 : Int) ≤ number ∧ (number : ℚ) < 2 ^ ((number.log2 : Int) + 1) := by
  rw [zpow_natCast, ← Nat.cast_succ, zpow_natCast]
  exact ⟨by exact_mod_cast Nat.log2_self_le nonzero, by exact_mod_cast @Nat.lt_log2_self number⟩

/-- The leading bits of a quotient are those from its leading exponent on. -/
theorem leadingExponent_bounds (format : Format) (nonzero : numerator ≠ 0)
    (positive : 0 < denominator) :
    (2 : ℚ) ^ (format.leadingExponent numerator denominator + format.fractionBits) ≤
        numerator / denominator ∧
      (numerator : ℚ) / denominator <
        2 ^ (format.leadingExponent numerator denominator + format.fractionBits + 1) := by
  have some : (0 : ℚ) < denominator := Nat.cast_pos.2 positive
  obtain ⟨numeratorLow, numeratorHigh⟩ := log2_bounds nonzero
  obtain ⟨denominatorLow, denominatorHigh⟩ := log2_bounds (Nat.ne_of_gt positive)
  have two : (2 : ℚ) ≠ 0 := two_ne_zero
  obtain ⟨estimate, isEstimate⟩ : ∃ estimate : Int,
      estimate = numerator.log2 - (denominator.log2 : Int) - format.fractionBits := ⟨_, rfl⟩
  have atMost : (numerator : ℚ) / denominator < 2 ^ (estimate + format.fractionBits + 1) := by
    rw [div_lt_iff₀ some]
    calc (numerator : ℚ) < 2 ^ ((numerator.log2 : Int) + 1) := numeratorHigh
      _ = 2 ^ (estimate + format.fractionBits + 1) * 2 ^ (denominator.log2 : Int) := by
          rw [← zpow_add₀ two]
          congr 1
          omega
      _ ≤ 2 ^ (estimate + format.fractionBits + 1) * denominator :=
          mul_le_mul_of_nonneg_left denominatorLow (by positivity)
  have atLeast : 2 ^ (estimate + format.fractionBits - 1) ≤ (numerator : ℚ) / denominator := by
    rw [le_div_iff₀ some]
    calc 2 ^ (estimate + format.fractionBits - 1) * (denominator : ℚ)
        ≤ 2 ^ (estimate + format.fractionBits - 1) * 2 ^ ((denominator.log2 : Int) + 1) :=
          mul_le_mul_of_nonneg_left denominatorHigh.le (by positivity)
      _ = 2 ^ (numerator.log2 : Int) := by
          rw [← zpow_add₀ two]
          congr 1
          omega
      _ ≤ numerator := numeratorLow
  have isTooHigh : numerator * 2 ^ (-estimate).toNat <
      denominator * 2 ^ estimate.toNat * 2 ^ format.fractionBits ↔
        (numerator : ℚ) / denominator < 2 ^ (estimate + format.fractionBits) := by
    rw [zpow_add₀ two, zpow_natCast, ← div_lt_iff₀' (by positivity : (0 : ℚ) < 2 ^ estimate),
      ← scaled_div, div_lt_iff₀' (by exact_mod_cast Nat.mul_pos positive (Nat.two_pow_pos _))]
    exact_mod_cast Iff.rfl
  rw [leadingExponent, ← isEstimate]
  split
  · rename_i tooHigh
    rw [sub_add_eq_add_sub, sub_add_cancel]
    exact ⟨atLeast, isTooHigh.1 tooHigh⟩
  · rename_i notTooHigh
    exact ⟨not_lt.1 fun below => notTooHigh (isTooHigh.2 below), atMost⟩

/-- The pattern nearest to a quotient has its leading exponent, or the least one. -/
theorem nearest_eq (format : Format) (nonzero : numerator ≠ 0) (denominator : Nat) :
    format.nearest numerator denominator =
      min ((max (format.leadingExponent numerator denominator) format.minExponent -
          format.minExponent).toNat * 2 ^ format.fractionBits +
        roundHalfEven
          (numerator *
            2 ^ (-max (format.leadingExponent numerator denominator) format.minExponent).toNat)
          (denominator *
            2 ^ (max (format.leadingExponent numerator denominator) format.minExponent).toNat))
        format.infinity := by
  rw [nearest, if_neg nonzero, leadingExponent]
  simp only [decide_eq_true_eq]

/-- The pattern nearest to a quotient, from an exponent that it has and the integer to which it rounds
under it. -/
theorem nearest_of_exponent {quotient : Nat} (nonzero : numerator ≠ 0) (positive : 0 < denominator)
    (least : format.minExponent ≤ exponent)
    (leads : exponent = format.minExponent ∨
      (2 : ℚ) ^ format.fractionBits ≤ numerator / denominator / 2 ^ exponent)
    (short : (numerator : ℚ) / denominator / 2 ^ exponent < 2 ^ (format.fractionBits + 1))
    (within : Within (quotient - 1 / 2) (quotient + 1 / 2) (quotient % 2 = 0)
      (numerator / denominator / 2 ^ exponent)) :
    format.nearest numerator denominator =
      min ((exponent - format.minExponent).toNat * 2 ^ format.fractionBits + quotient)
        format.infinity := by
  have two : (2 : ℚ) ≠ 0 := two_ne_zero
  have unit : (0 : ℚ) < 2 ^ exponent := by positivity
  obtain ⟨lower, upper⟩ := leadingExponent_bounds format nonzero positive
  have notAbove : format.leadingExponent numerator denominator ≤ exponent := by
    rw [div_lt_iff₀ unit, ← zpow_natCast, ← zpow_add₀ two] at short
    have order := (zpow_lt_zpow_iff_right₀ one_lt_two).1 (lower.trans_lt short)
    omega
  have isExponent :
      max (format.leadingExponent numerator denominator) format.minExponent = exponent := by
    rcases leads with rfl | leads
    · exact max_eq_right notAbove
    · rw [le_div_iff₀ unit, ← zpow_natCast, ← zpow_add₀ two] at leads
      have order := (zpow_lt_zpow_iff_right₀ one_lt_two).1 (leads.trans_lt upper)
      omega
  rw [← scaled_div] at within
  rw [nearest_eq format nonzero, isExponent,
    roundHalfEven_eq (Nat.mul_pos positive (Nat.two_pow_pos _)) within]

/-! ## Numbers of a format -/

/-- Whether a format has the number `mantissa * 2 ^ exponent`, and reads it so. -/
structure Has (format : Format) (mantissa : Nat) (exponent : Int) : Prop where
  /-- The mantissa is not too long. -/
  short : mantissa < 2 ^ (format.fractionBits + 1)
  /-- The exponent is not too small. -/
  least : format.minExponent ≤ exponent
  /-- The exponent is not too great. -/
  finite : exponent + 2 < format.minExponent + (2 ^ format.exponentBits : Nat)
  /-- Only the smallest numbers lack the leading bit. -/
  leads : exponent = format.minExponent ∨ 2 ^ format.fractionBits ≤ mantissa

/-- The pattern of a number of a format. -/
def pattern (format : Format) (mantissa : Nat) (exponent : Int) : Nat :=
  (exponent - format.minExponent).toNat * 2 ^ format.fractionBits + mantissa

/-- How far below a number the values still round to it, in units of its exponent. -/
def reachBelow (format : Format) (mantissa : Nat) (exponent : Int) : ℚ :=
  if mantissa = 2 ^ format.fractionBits ∧ format.minExponent < exponent then 1 / 4 else 1 / 2

/-- Whether a value lies in the interval of those that round to the number `mantissa * 2 ^ exponent`. -/
def RoundsTo (format : Format) (value : ℚ) (mantissa : Nat) (exponent : Int) : Prop :=
  Within (mantissa - format.reachBelow mantissa exponent) (mantissa + 1 / 2) (mantissa % 2 = 0)
    (value / 2 ^ exponent)

/-- Values still round to a number a quarter of a unit below it, and at most half of a unit. -/
theorem reachBelow_bounds (format : Format) (mantissa : Nat) (exponent : Int) :
    1 / 4 ≤ format.reachBelow mantissa exponent ∧ format.reachBelow mantissa exponent ≤ 1 / 2 := by
  rw [reachBelow]
  split <;> norm_num

/-- A number rounds to itself. -/
theorem roundsTo_self (format : Format) (mantissa : Nat) (exponent : Int) :
    format.RoundsTo (mantissa * 2 ^ exponent) mantissa exponent := by
  have some := (reachBelow_bounds format mantissa exponent).1
  rw [RoundsTo, mul_div_cancel_right₀ _ (zpow_ne_zero _ two_ne_zero)]
  exact Within.of_lt (by linarith) (by linarith)

/-- The pattern of a number of a format is not beyond that of infinity. -/
theorem Has.pattern_le (has : format.Has mantissa exponent) :
    format.pattern mantissa exponent ≤ format.infinity := by
  have short := has.short
  rw [Nat.pow_succ] at short
  have several : (exponent - format.minExponent).toNat + 2 < 2 ^ format.exponentBits := by
    have least := has.least
    have finite := has.finite
    omega
  calc format.pattern mantissa exponent
      ≤ (exponent - format.minExponent).toNat * 2 ^ format.fractionBits +
          2 * 2 ^ format.fractionBits := by
        rw [pattern]
        omega
    _ = ((exponent - format.minExponent).toNat + 2) * 2 ^ format.fractionBits := by rw [Nat.add_mul]
    _ ≤ format.infinity := Nat.mul_le_mul_right _ (by omega)

/-- The pattern nearest to a value that rounds to a number is that of the number. -/
theorem Has.nearest_eq (has : format.Has mantissa exponent) (nonzero : mantissa ≠ 0)
    (positive : 0 < denominator)
    (rounds : format.RoundsTo ((numerator : ℚ) / denominator) mantissa exponent) :
    format.nearest numerator denominator = format.pattern mantissa exponent := by
  obtain ⟨low, high⟩ := rounds.1
  have half := (reachBelow_bounds format mantissa exponent).2
  have atLeast : (1 : ℚ) ≤ mantissa := by exact_mod_cast Nat.one_le_iff_ne_zero.2 nonzero
  have some : numerator ≠ 0 := by
    rintro rfl
    rw [Nat.cast_zero, zero_div, zero_div] at low
    linarith
  have short : (numerator : ℚ) / denominator / 2 ^ exponent < 2 ^ (format.fractionBits + 1) := by
    have room : ((mantissa + 1 : Nat) : ℚ) ≤ (2 ^ (format.fractionBits + 1) : Nat) :=
      Nat.cast_le.2 has.short
    push_cast at room
    linarith
  rw [← Nat.min_eq_left has.pattern_le]
  by_cases leads : exponent = format.minExponent ∨
      (2 : ℚ) ^ format.fractionBits ≤ numerator / denominator / 2 ^ exponent
  · exact nearest_of_exponent some positive has.least leads short (rounds.of_le_low (by linarith))
  · rw [not_or, not_le] at leads
    obtain ⟨notLeast, below⟩ := leads
    have isPower : mantissa = 2 ^ format.fractionBits := by
      have atMost : ((mantissa : ℚ) < (2 ^ format.fractionBits + 1 : Nat)) := by
        push_cast
        linarith
      have leading := has.leads.resolve_left notLeast
      have bounded := Nat.cast_lt.1 atMost
      omega
    -- Below a power of two the quotient has the next smaller exponent and rounds up to the power.
    have doubled : (numerator : ℚ) / denominator / 2 ^ (exponent - 1) =
        2 * (numerator / denominator / 2 ^ exponent) := by
      rw [zpow_sub_one₀ two_ne_zero]
      field_simp
    have power : (1 : ℚ) ≤ 2 ^ format.fractionBits := one_le_pow₀ one_le_two
    have least := has.least
    have isPattern : format.pattern mantissa exponent =
        (exponent - 1 - format.minExponent).toNat * 2 ^ format.fractionBits +
          2 ^ (format.fractionBits + 1) := by
      rw [pattern, isPower, show (exponent - format.minExponent).toNat =
        (exponent - 1 - format.minExponent).toNat + 1 by omega, Nat.add_mul, Nat.pow_succ]
      omega
    rw [isPattern]
    rw [reachBelow, if_pos ⟨isPower, lt_of_le_of_ne least (Ne.symm notLeast)⟩, isPower] at low
    push_cast at low
    have next : (2 : ℚ) ^ (format.fractionBits + 1) = 2 ^ format.fractionBits * 2 := pow_succ _ _
    have isEven : 2 ^ (format.fractionBits + 1) % 2 = 0 := by rw [Nat.pow_succ, Nat.mul_mod_left]
    refine nearest_of_exponent some positive (by omega) (Or.inr ?_) ?_ ⟨⟨?_, ?_⟩, Or.inl isEven⟩
    all_goals
      rw [doubled]
      push_cast
      linarith

/-! ## Patterns that are read -/

variable {bits : Nat} {negative : Bool}

/-- A pattern without its sign is below the pattern of the sign. -/
theorem withSign_eq (small : bits < 2 * format.signBit) :
    bits = format.withSign (decide (format.signBit ≤ bits)) (bits % format.signBit) := by
  rw [withSign]
  split
  · rename_i signed
    rw [decide_eq_true_eq] at signed
    rw [Nat.mod_eq_sub_mod signed, Nat.mod_eq_of_lt (by omega)]
    omega
  · rename_i unsigned
    rw [decide_eq_true_eq, Nat.not_le] at unsigned
    rw [Nat.mod_eq_of_lt unsigned]

/-- A pattern that is read as a finite number is that of the number. -/
theorem eq_pattern_of_read (wide : 2 < 2 ^ format.exponentBits) (small : bits < 2 * format.signBit)
    (isRead : format.read bits = .finite negative mantissa exponent) :
    format.Has mantissa exponent ∧
      bits = format.withSign negative (format.pattern mantissa exponent) := by
  have positive := Nat.two_pow_pos format.fractionBits
  have bounded : bits % format.signBit < 2 ^ format.fractionBits * 2 ^ format.exponentBits := by
    rw [← Nat.pow_add]
    exact Nat.mod_lt _ (Nat.two_pow_pos _)
  have fieldBound := Nat.div_lt_of_lt_mul bounded
  have parts := Nat.div_add_mod (bits % format.signBit) (2 ^ format.fractionBits)
  have fraction := Nat.mod_lt (bits % format.signBit) positive
  have isSigned := withSign_eq small
  rw [read] at isRead
  generalize decide (format.signBit ≤ bits) = sign at isSigned isRead
  generalize bits % format.signBit = magnitude at *
  generalize magnitude / 2 ^ format.fractionBits = field at *
  generalize magnitude % 2 ^ format.fractionBits = rest at *
  split at isRead
  · split at isRead <;> cases isRead
  rename_i notLast
  split at isRead
  · rename_i isZero
    obtain ⟨rfl, rfl, rfl⟩ := Reading.finite.inj isRead
    refine ⟨⟨by rw [Nat.pow_succ]; omega, le_refl _, by omega, Or.inl rfl⟩, ?_⟩
    rw [isSigned, pattern, ← parts, isZero, sub_self, Int.toNat_zero, Nat.zero_mul, Nat.mul_zero]
  · obtain ⟨rfl, rfl, rfl⟩ := Reading.finite.inj isRead
    refine ⟨⟨by rw [Nat.pow_succ]; omega, by omega, by omega, Or.inr (Nat.le_add_right _ _)⟩, ?_⟩
    obtain ⟨previous, rfl⟩ := Nat.exists_eq_succ_of_ne_zero ‹field ≠ 0›
    rw [isSigned, pattern, ← parts, show (format.minExponent + ((previous.succ : Nat) : Int) - 1 -
      format.minExponent).toNat = previous by omega, Nat.mul_succ, Nat.mul_comm previous, Nat.add_assoc]

/-- A pattern that is read as infinity is that of infinity. -/
theorem eq_infinity_of_read (small : bits < 2 * format.signBit)
    (isRead : format.read bits = .infinite negative) :
    bits = format.withSign negative format.infinity := by
  have parts := Nat.div_add_mod (bits % format.signBit) (2 ^ format.fractionBits)
  rw [read] at isRead
  split at isRead
  · rename_i isLast
    split at isRead
    · rename_i isZero
      rw [isLast, isZero, Nat.add_zero, Nat.mul_comm] at parts
      rw [← Reading.infinite.inj isRead, infinity, parts]
      exact withSign_eq small
    · cases isRead
  · split at isRead <;> cases isRead

end Format

/-! ## Double precision -/

namespace FloatScalar

variable {value : Float} {negative : Bool}

/-- The value of a pattern is that of what the pattern is read as. -/
theorem ofPattern_eq {bits : Nat} (small : bits < 2 ^ 64) :
    ofPattern bits = Float.ofModel (Float.Model.pack (Format.double.read bits).unpacked) := by
  have same := @MachineNumber.unpack_eq .binary64 (UInt64.ofNat bits).toBitVec
  have isBits : (UInt64.ofNat bits).toBitVec.toNat = bits := UInt64.toNat_ofNat_of_lt' small
  rw [isBits] at same
  exact congrArg (fun number => Float.ofModel (Float.Model.pack number)) same

/-- A value is had back from its pattern. -/
theorem ofPattern_toBits (value : Float) : ofPattern value.toBits.toNat = value := by
  obtain ⟨⟨bits, valid⟩⟩ := value
  have same := @MachineNumber.pack_unpack .binary64 bits.toBitVec (by decide) valid
  show Float.ofBits (UInt64.ofNat bits.toNat) = _
  rw [UInt64.ofNat_toNat]
  refine congrArg Float.ofModel ?_
  rw [Float.Model.ofBits, Float.Model.pack]
  congr 1
  exact congrArg UInt64.ofBitVec same

/-- A value that is read as a finite number has the pattern of the number. -/
theorem eq_of_read_finite {mantissa : Nat} {exponent : Int}
    (isRead : read value = .finite negative mantissa exponent) :
    Format.double.Has mantissa exponent ∧
      value = ofPattern (Format.double.withSign negative (Format.double.pattern mantissa exponent)) := by
  obtain ⟨has, isPattern⟩ := Format.eq_pattern_of_read (by decide) value.toBits.toNat_lt isRead
  exact ⟨has, by rw [← isPattern, ofPattern_toBits]⟩

/-- A value that is read as infinity has the pattern of infinity. -/
theorem eq_of_read_infinite (isRead : read value = .infinite negative) :
    value = ofPattern (Format.double.withSign negative Format.double.infinity) := by
  rw [← Format.eq_infinity_of_read value.toBits.toNat_lt isRead, ofPattern_toBits]

/-- A value that is read as no number has the pattern of none. -/
theorem eq_of_read_notANumber (isRead : read value = .notANumber) :
    value = ofPattern Format.double.quietNaN := by
  have isNone : Format.double.read Format.double.quietNaN = .notANumber := by decide +kernel
  have isValue : Format.double.read value.toBits.toNat = .notANumber := isRead
  rw [← ofPattern_toBits value, ofPattern_eq value.toBits.toNat_lt, isValue,
    ofPattern_eq (by decide +kernel), isNone]

end FloatScalar
end Monochrome
