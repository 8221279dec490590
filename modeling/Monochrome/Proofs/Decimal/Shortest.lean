import Monochrome.Decimal.Numeral
import Monochrome.Proofs.Binary.Nearest

/-!
# Shortest numerals

Digit after digit is tried until a numeral lies in the interval of the values that round to a number.  The
grid of the last digit that is tried is so fine that the multiple below the number lies in the interval, so
one is found in time.  A numeral in the interval is read as the number: its order of magnitude is not far
outside of the format, and the pattern nearest to it is that of the number.
-/

namespace Monochrome
namespace Numeral

/-- The number that a numeral stands for, without its sign. -/
def magnitude (numeral : Numeral) : ℚ :=
  numeral.coefficient * 10 ^ numeral.exponent

/-! ## Digits -/

/-- A number is as great as the place of its first digit. -/
theorem digits_bounds {number : Nat} (nonzero : number ≠ 0) :
    10 ^ ((digits number).length - 1) ≤ number ∧ number < 10 ^ (digits number).length := by
  have some : 0 < (digits number).length := Nat.length_toDigits_pos
  refine ⟨?_, (Nat.length_toDigits_le_iff (by decide) some).1 (Nat.le_refl _)⟩
  rcases Nat.eq_zero_or_pos ((digits number).length - 1) with single | several
  · rw [single]
    exact Nat.one_le_iff_ne_zero.2 nonzero
  · by_contra below
    have short := (Nat.length_toDigits_le_iff (by decide) several).2 (Nat.lt_of_not_le below)
    change (digits number).length ≤ _ at short
    omega

/-- A quotient is at least as great as its first place. -/
theorem zpow_places_le {numerator denominator : Nat} (nonzero : numerator ≠ 0)
    (positive : 0 < denominator) :
    (10 : ℚ) ^ (places numerator denominator - 1) ≤ numerator / denominator := by
  have some : (0 : ℚ) < denominator := Nat.cast_pos.2 positive
  have ten : (10 : ℚ) ≠ 0 := by norm_num
  rw [places]
  split
  · rename_i whole
    have quotient : numerator / denominator ≠ 0 := Nat.ne_of_gt (Nat.div_pos whole positive)
    have several : 0 < (digits (numerator / denominator)).length := Nat.length_toDigits_pos
    have atLeast := (Nat.le_div_iff_mul_le positive).1 (digits_bounds quotient).1
    rw [le_div_iff₀ some, ← Nat.cast_pred several, zpow_natCast]
    exact_mod_cast atLeast
  · rename_i fraction
    have quotient : denominator / numerator ≠ 0 :=
      Nat.ne_of_gt (Nat.div_pos (Nat.le_of_lt (Nat.lt_of_not_le fraction)) (Nat.pos_of_ne_zero nonzero))
    have several : 0 < (digits (denominator / numerator)).length := Nat.length_toDigits_pos
    have below := (Nat.div_lt_iff_lt_mul (Nat.pos_of_ne_zero nonzero)).1 (digits_bounds quotient).2
    generalize (digits (denominator / numerator)).length = length at *
    dsimp only
    split
    · rename_i isPower
      rw [le_div_iff₀ some, ← isPower, show 2 - (length : Int) - 1 = -((length - 1 : Nat) : Int) by omega,
        zpow_neg, zpow_natCast]
      push_cast
      rw [inv_mul_le_iff₀ (by positivity), mul_comm]
    · rw [le_div_iff₀ some, show 1 - (length : Int) - 1 = -(length : Int) by omega, zpow_neg,
        zpow_natCast, inv_mul_le_iff₀ (by positivity)]
      exact_mod_cast below.le

/-- A number with a power of ten, as a quotient. -/
theorem mul_zpow_eq_div (coefficient : Nat) (exponent : Int) :
    (coefficient : ℚ) * 10 ^ exponent =
      coefficient * 10 ^ exponent.toNat / 10 ^ (-exponent).toNat := by
  rw [zpow_eq_div (by norm_num), mul_div_assoc]

/-! ## Intervals -/

namespace Target

variable {target : Target} {value : ℚ} {coefficient : Nat} {exponent : Int}

/-- Whether a value lies in the interval. -/
def Includes (target : Target) (value : ℚ) : Prop :=
  Within (target.low / target.denominator) (target.high / target.denominator)
    (target.closed = true) value

/-- A numeral is told to lie in the interval if it does. -/
theorem contains_iff (positive : 0 < target.denominator) :
    target.contains coefficient exponent = true ↔ target.Includes (coefficient * 10 ^ exponent) := by
  have some : (0 : ℚ) < target.denominator := Nat.cast_pos.2 positive
  have unit : (0 : ℚ) < 10 ^ (-exponent).toNat := by positivity
  have isValue := mul_zpow_eq_div coefficient exponent
  have above (bound : Nat) : bound * 10 ^ (-exponent).toNat <
      coefficient * 10 ^ exponent.toNat * target.denominator ↔
        (bound : ℚ) / target.denominator < coefficient * 10 ^ exponent := by
    rw [isValue, div_lt_div_iff₀ some unit]
    exact_mod_cast Iff.rfl
  have below (bound : Nat) : coefficient * 10 ^ exponent.toNat * target.denominator <
      bound * 10 ^ (-exponent).toNat ↔
        (coefficient : ℚ) * 10 ^ exponent < bound / target.denominator := by
    rw [isValue, div_lt_div_iff₀ unit some]
    exact_mod_cast Iff.rfl
  rw [Includes, Within, ← not_lt, ← not_lt, ← above, ← below, ← above, ← below, contains]
  cases target.closed with
  | true =>
      simp only [if_true, Bool.and_eq_true, decide_eq_true_eq, true_or, and_true, not_lt]
  | false =>
      simp only [Bool.false_eq_true, if_false, Bool.and_eq_true, decide_eq_true_eq, false_or, not_lt]
      exact ⟨fun strict => ⟨⟨strict.1.le, strict.2.le⟩, strict⟩, And.right⟩

/-- The multiple of a grid that is found lies in the interval. -/
theorem includes_of_onGrid? (positive : 0 < target.denominator)
    (isFound : target.onGrid? exponent = some coefficient) :
    target.Includes (coefficient * 10 ^ exponent) := by
  rw [← contains_iff positive]
  simp only [onGrid?] at isFound
  split at isFound
  · rename_i isLower
    rw [Bool.and_eq_true] at isLower
    rw [← Option.some.inj isFound]
    exact isLower.1
  split at isFound
  · rename_i isUpper
    rw [← Option.some.inj isFound]
    exact isUpper
  · cases isFound

/-- A multiple is found on a grid that is finer than the part of the interval below the value. -/
theorem isSome_onGrid? (positive : 0 < target.denominator)
    (fine : (target.low : ℚ) / target.denominator + 10 ^ exponent ≤ target.value / target.denominator)
    (below : (target.value : ℚ) / target.denominator < target.high / target.denominator) :
    (target.onGrid? exponent).isSome = true := by
  have some : (0 : ℚ) < target.denominator := Nat.cast_pos.2 positive
  have unit : (0 : ℚ) < 10 ^ (-exponent).toNat := by positivity
  have step : 0 < 10 ^ exponent.toNat * target.denominator :=
    Nat.mul_pos (Nat.pow_pos (by decide)) positive
  simp only [onGrid?]
  generalize isBelow : target.value * 10 ^ (-exponent).toNat /
    (10 ^ exponent.toNat * target.denominator) = multiple
  have notAbove := Nat.div_mul_le_self (target.value * 10 ^ (-exponent).toNat)
    (10 ^ exponent.toNat * target.denominator)
  have notFar := Nat.lt_mul_div_succ (target.value * 10 ^ (-exponent).toNat) step
  rw [isBelow] at notAbove
  rw [isBelow, Nat.mul_comm _ (multiple + 1)] at notFar
  have atMost : (multiple : ℚ) * 10 ^ exponent ≤ target.value / target.denominator := by
    rw [mul_zpow_eq_div, div_le_div_iff₀ unit some, mul_assoc]
    exact_mod_cast notAbove
  have near : (target.value : ℚ) / target.denominator < multiple * 10 ^ exponent + 10 ^ exponent := by
    have next := mul_zpow_eq_div (multiple + 1) exponent
    push_cast at next
    rw [← add_one_mul, next, div_lt_div_iff₀ some unit, mul_assoc]
    exact_mod_cast notFar
  have isLower : target.contains multiple exponent = true :=
    (contains_iff positive).2 (Within.of_lt (by linarith) (by linarith))
  rw [isLower, Bool.true_and]
  split
  · rfl
  split
  · rfl
  · rename_i nearer notUpper
    simp [notUpper] at nearer

end Target

/-! ## Digit after digit -/

/-- A numeral without zeros at its end stands for the same number. -/
theorem strip_eq (fuel coefficient : Nat) (exponent : Int) :
    ((strip fuel coefficient exponent).1 : ℚ) * 10 ^ (strip fuel coefficient exponent).2 =
      coefficient * 10 ^ exponent := by
  fun_induction strip fuel coefficient exponent with
  | case1 => rfl
  | case2 fuel coefficient exponent ends inductionHypothesis =>
      have whole : ((coefficient / 10 * 10 : Nat) : ℚ) = coefficient := by
        rw [Nat.div_mul_cancel (Nat.dvd_of_mod_eq_zero ends)]
      rw [inductionHypothesis, ← whole, zpow_add_one₀ (by norm_num)]
      push_cast
      ring
  | case3 => rfl

/-- The numeral that is found lies in the interval, if one of the grids that are tried is fine enough. -/
theorem includes_fewestDigits {target : Target} {last fuel count : Nat} {places : Int}
    (positive : 0 < target.denominator) (isFound : (target.onGrid? (places - last)).isSome = true)
    (notBefore : count ≤ last) (inTime : last < count + fuel) :
    target.Includes ((fewestDigits target places fuel count).1 *
      10 ^ (fewestDigits target places fuel count).2) := by
  induction fuel generalizing count with
  | zero => omega
  | succ fuel inductionHypothesis =>
      rw [fewestDigits]
      cases onGrid : target.onGrid? (places - count) with
      | some coefficient =>
          dsimp only
          rw [strip_eq]
          exact Target.includes_of_onGrid? positive onGrid
      | none =>
          have notHere : count ≠ last := by
            rintro rfl
            rw [onGrid] at isFound
            cases isFound
          exact inductionHypothesis (by omega) (by omega)

variable {format : Format} {mantissa : Nat} {exponent : Int}

/-- The parts of the interval around a number. -/
theorem target_eq (format : Format) (nonzero : mantissa ≠ 0) (exponent : Int) :
    0 < (target format mantissa exponent).denominator ∧
    ((target format mantissa exponent).value : ℚ) / (target format mantissa exponent).denominator =
      mantissa * 2 ^ exponent ∧
    ((target format mantissa exponent).low : ℚ) / (target format mantissa exponent).denominator =
      (mantissa - format.reachBelow mantissa exponent) * 2 ^ exponent ∧
    ((target format mantissa exponent).high : ℚ) / (target format mantissa exponent).denominator =
      (mantissa + 1 / 2) * 2 ^ exponent := by
  have power := zpow_eq_div (two_ne_zero : (2 : ℚ) ≠ 0) exponent
  have down : (2 : ℚ) ^ (-exponent).toNat ≠ 0 := by positivity
  have several := Nat.pos_of_ne_zero nonzero
  refine ⟨Nat.mul_pos (by decide) (Nat.two_pow_pos _), ?_, ?_, ?_⟩
  · rw [target, power]
    push_cast
    field_simp
  · rw [target, power, Format.reachBelow]
    simp only [Bool.and_eq_true, decide_eq_true_eq]
    split
    · push_cast [show 1 ≤ 4 * mantissa by omega]
      field_simp
    · push_cast [show 2 ≤ 4 * mantissa by omega]
      field_simp
      ring
  · rw [target, power]
    push_cast
    field_simp
    ring

/-- The interval around a number is that of the values that round to it. -/
theorem includes_target_iff {value : ℚ} (nonzero : mantissa ≠ 0) :
    (target format mantissa exponent).Includes value ↔ format.RoundsTo value mantissa exponent := by
  have unit : (0 : ℚ) < 2 ^ exponent := by positivity
  obtain ⟨-, -, isLow, isHigh⟩ := target_eq format nonzero exponent
  have isClosed : (target format mantissa exponent).closed = true ↔ mantissa % 2 = 0 :=
    decide_eq_true_iff
  rw [Target.Includes, Format.RoundsTo, isLow, isHigh, isClosed, Within.div_iff unit]

/-- The twentieth place of a number is finer than what its interval reaches below it. -/
theorem zpow_le_reachBelow {count : Int} (has : format.Has mantissa exponent)
    (fine : 2 ^ (format.fractionBits + 3) ≤ 10 ^ 19)
    (leading : (10 : ℚ) ^ (count - 1) ≤ mantissa * 2 ^ exponent) :
    (10 : ℚ) ^ (count - (20 : Nat)) ≤ format.reachBelow mantissa exponent * 2 ^ exponent := by
  have unit : (0 : ℚ) < 2 ^ exponent := by positivity
  have reach := (Format.reachBelow_bounds format mantissa exponent).1
  have scaled : (10 : ℚ) ^ (count - (20 : Nat)) * 10 ^ 19 = 10 ^ (count - 1) := by
    rw [← zpow_natCast, ← zpow_add₀ (by norm_num)]
    congr 1
    omega
  have short : (mantissa : ℚ) ≤ 1 / 4 * 10 ^ 19 := by
    have bound := has.short
    rw [Nat.pow_add] at fine bound
    have fourfold : ((4 * mantissa : Nat) : ℚ) ≤ (10 ^ 19 : Nat) := Nat.cast_le.2 (by omega)
    push_cast at fourfold
    linarith
  refine le_of_mul_le_mul_right ?_ (by norm_num : (0 : ℚ) < 10 ^ 19)
  calc (10 : ℚ) ^ (count - (20 : Nat)) * 10 ^ 19 = 10 ^ (count - 1) := scaled
    _ ≤ mantissa * 2 ^ exponent := leading
    _ ≤ 1 / 4 * 10 ^ 19 * 2 ^ exponent := mul_le_mul_of_nonneg_right short unit.le
    _ = 1 / 4 * 2 ^ exponent * 10 ^ 19 := mul_right_comm _ _ _
    _ ≤ format.reachBelow mantissa exponent * 2 ^ exponent * 10 ^ 19 :=
        mul_le_mul_of_nonneg_right (mul_le_mul_of_nonneg_right reach unit.le) (by norm_num)

/-- The shortest numeral of a number rounds to it. -/
theorem roundsTo_shortest (negative : Bool) (has : format.Has mantissa exponent)
    (nonzero : mantissa ≠ 0) (fine : 2 ^ (format.fractionBits + 3) ≤ 10 ^ 19) :
    format.RoundsTo (shortest format negative mantissa exponent).magnitude mantissa exponent := by
  obtain ⟨positive, isValue, isLow, isHigh⟩ := target_eq format nonzero exponent
  have some : (target format mantissa exponent).value ≠ 0 :=
    Nat.mul_ne_zero (Nat.mul_ne_zero (by decide) nonzero) (Nat.ne_of_gt (Nat.two_pow_pos _))
  have leading := zpow_places_le some positive
  rw [isValue] at leading
  generalize isPlaces : places (target format mantissa exponent).value
    (target format mantissa exponent).denominator = count at leading
  have isFound : ((target format mantissa exponent).onGrid? (count - (20 : Nat))).isSome = true := by
    refine Target.isSome_onGrid? positive ?_ ?_
    · rw [isLow, isValue]
      linarith [zpow_le_reachBelow has fine leading]
    · rw [isValue, isHigh]
      exact mul_lt_mul_of_pos_right (by linarith) (by positivity)
  rw [← includes_target_iff nonzero, shortest, if_neg nonzero, magnitude]
  simp only [isPlaces]
  exact includes_fewestDigits positive isFound (by decide) (by decide)

/-! ## Numerals that are read -/

variable {numeral : Numeral}

/-- A numeral stands for a number of its order of magnitude. -/
theorem zpow_order_bounds (nonzero : numeral.coefficient ≠ 0) :
    (10 : ℚ) ^ (numeral.exponent + (digits numeral.coefficient).length - 1) ≤ numeral.magnitude ∧
      numeral.magnitude < 10 ^ (numeral.exponent + (digits numeral.coefficient).length) := by
  have ten : (10 : ℚ) ≠ 0 := by norm_num
  have unit : (0 : ℚ) < 10 ^ numeral.exponent := by positivity
  have several : 0 < (digits numeral.coefficient).length := Nat.length_toDigits_pos
  obtain ⟨low, high⟩ := digits_bounds nonzero
  rw [magnitude, add_sub_assoc, zpow_add₀ ten, zpow_add₀ ten, mul_comm _ (10 ^ numeral.exponent),
    ← Nat.cast_pred several, zpow_natCast, zpow_natCast]
  constructor
  · exact mul_le_mul_of_nonneg_left (by exact_mod_cast low) unit.le
  · exact mul_lt_mul_of_pos_left (by exact_mod_cast high) unit

/-- Three decimal places are more than nine binary ones. -/
theorem two_zpow_lt : (2 : ℚ) ^ (1080 : Int) < 10 ^ (360 : Int) := by
  have nine : (2 : ℚ) ^ (9 : Int) < 10 ^ (3 : Int) := by norm_num
  calc (2 : ℚ) ^ (1080 : Int) = (2 ^ (9 : Int)) ^ (120 : Int) := zpow_mul 2 9 120
    _ < (10 ^ (3 : Int)) ^ (120 : Int) := zpow_lt_zpow_left₀ (by norm_num) (by norm_num) nine
    _ = 10 ^ (360 : Int) := (zpow_mul 10 3 120).symm

/-- The numbers of double precision that are not zero lie between powers of ten. -/
theorem magnitude_bounds (has : Format.double.Has mantissa exponent) (nonzero : mantissa ≠ 0)
    (rounds : Format.double.RoundsTo numeral.magnitude mantissa exponent) :
    (10 : ℚ) ^ (-360 : Int) < numeral.magnitude ∧ numeral.magnitude < 10 ^ (360 : Int) := by
  have unit : (0 : ℚ) < 2 ^ exponent := by positivity
  have half := (Format.reachBelow_bounds .double mantissa exponent).2
  obtain ⟨low, high⟩ := ((Within.div_iff unit).1 rounds).1
  have least : (2 : ℚ) ^ (-1074 : Int) ≤ 2 ^ exponent := zpow_le_zpow_right₀ one_le_two has.least
  have greatest : (2 : ℚ) ^ exponent ≤ 2 ^ (971 : Int) := by
    have finite : exponent + 2 < -1074 + 2048 := has.finite
    exact zpow_le_zpow_right₀ one_le_two (by omega)
  have some : (1 : ℚ) ≤ mantissa := by exact_mod_cast Nat.one_le_iff_ne_zero.2 nonzero
  have short : (mantissa : ℚ) + 1 ≤ 2 ^ 53 := by exact_mod_cast has.short
  constructor
  · calc (10 : ℚ) ^ (-360 : Int) < 2 ^ (-1080 : Int) := by
          rw [zpow_neg, zpow_neg]
          exact (inv_lt_inv₀ (by positivity) (by positivity)).2 two_zpow_lt
      _ ≤ 2 ^ (-1 + -1074 : Int) := zpow_le_zpow_right₀ one_le_two (by norm_num)
      _ = 1 / 2 * 2 ^ (-1074 : Int) := by
          rw [zpow_add₀ two_ne_zero, zpow_neg_one, one_div]
      _ ≤ 1 / 2 * 2 ^ exponent := mul_le_mul_of_nonneg_left least (by norm_num)
      _ ≤ (mantissa - Format.double.reachBelow mantissa exponent) * 2 ^ exponent :=
          mul_le_mul_of_nonneg_right (by linarith) unit.le
      _ ≤ numeral.magnitude := low
  · calc numeral.magnitude ≤ (mantissa + 1 / 2) * 2 ^ exponent := high
      _ ≤ 2 ^ (53 : Int) * 2 ^ (971 : Int) :=
          mul_le_mul (by rw [zpow_ofNat]; linarith) greatest unit.le (by positivity)
      _ = 2 ^ (53 + 971 : Int) := (zpow_add₀ two_ne_zero _ _).symm
      _ ≤ 2 ^ (1080 : Int) := zpow_le_zpow_right₀ one_le_two (by norm_num)
      _ < 10 ^ (360 : Int) := two_zpow_lt

/-- A numeral that rounds to a number of double precision is read as the number. -/
theorem nearest_of_roundsTo (has : Format.double.Has mantissa exponent) (nonzero : mantissa ≠ 0)
    (rounds : Format.double.RoundsTo numeral.magnitude mantissa exponent) :
    numeral.nearest .double =
      Format.double.withSign numeral.negative (Format.double.pattern mantissa exponent) := by
  obtain ⟨notSmall, notGreat⟩ := magnitude_bounds has nonzero rounds
  have some : numeral.coefficient ≠ 0 := by
    intro isZero
    rw [magnitude, isZero, Nat.cast_zero, zero_mul] at notSmall
    exact absurd notSmall (by norm_num)
  obtain ⟨low, high⟩ := zpow_order_bounds some
  have aboveLeast := (zpow_lt_zpow_iff_right₀ (by norm_num : (1 : ℚ) < 10)).1 (notSmall.trans high)
  have belowGreatest := (zpow_lt_zpow_iff_right₀ (by norm_num : (1 : ℚ) < 10)).1 (low.trans_lt notGreat)
  rw [magnitude, mul_zpow_eq_div] at rounds
  have scaled : Format.double.RoundsTo (((numeral.coefficient * 10 ^ numeral.exponent.toNat : Nat) : ℚ) /
      (10 ^ (-numeral.exponent).toNat : Nat)) mantissa exponent := by
    push_cast
    exact rounds
  have isPattern := has.nearest_eq nonzero (Nat.pow_pos (by decide)) scaled
  rw [nearest, isPattern, if_neg, if_neg]
  · omega
  · simp only [Bool.or_eq_true, decide_eq_true_eq, not_or]
    exact ⟨some, by omega⟩

/-- A numeral of zero is read as zero. -/
theorem nearest_of_zero (format : Format) (isZero : numeral.coefficient = 0) :
    numeral.nearest format = format.withSign numeral.negative 0 := by
  rw [nearest, if_pos]
  rw [isZero]
  rfl

end Numeral
end Monochrome
