import Monochrome.Proofs.Binary.Integers
import Monochrome.Proofs.Color

/-!
# Integers in single precision

Single precision compares numbers as they are read.  So a value that was moved between zero and a
small integer has no greater integer part, and an integer that single precision holds is the integer
part of its own value.  The integer part of a value is such an integer.
-/

namespace Monochrome
namespace Float32Scalar

variable {value : Float32} {negative : Bool} {mantissa number : Nat} {exponent : Int}

/-! ## What is read -/

/-- The fields of a finite number are bounded, and only the smallest numbers lack the implicit
bit. -/
theorem bounds_of_read (isRead : read value = .finite negative mantissa exponent) :
    mantissa < 2 ^ 24 ∧ -149 ≤ exponent ∧ (exponent = -149 ∨ 2 ^ 23 ≤ mantissa) := by
  have least : Format.single.minExponent = -149 := by decide
  have small := Nat.mod_lt (value.toBits.toNat % Format.single.signBit) (Nat.two_pow_pos 23)
  rw [read, Format.read] at isRead
  simp only [least, show Format.single.fractionBits = 23 from rfl] at isRead
  split at isRead
  · split at isRead <;> cases isRead
  · split at isRead
    · cases isRead
      omega
    · cases isRead
      omega

/-- The pattern nearest to an integer has no sign. -/
theorem nearest_lt (number : Nat) : Format.single.nearest number 1 < 2 ^ 32 := by
  rw [Format.nearest]
  split
  · decide
  · refine Nat.lt_of_le_of_lt (Nat.min_le_right _ _) ?_
    decide

/-- The value of an integer is read as the pattern nearest to it. -/
theorem read_ofNat (number : Nat) :
    read (Scalar.ofNat number) = Format.single.read (Format.single.nearest number 1) := by
  show read (ofPattern (Format.single.ofInt number)) = _
  have noSign : Format.single.ofInt number = Format.single.nearest number 1 := by
    rw [Format.ofInt, Format.withSign, Int.natAbs_natCast, if_neg]
    simp
  rw [noSign, read_ofPattern (nearest_lt number)]

/-- The value of an integer that single precision holds. -/
theorem read_ofNat_of_holds (holds : Format.single.Holds number) (nonzero : number ≠ 0) :
    ∃ mantissa, read (Scalar.ofNat number) = .finite false mantissa ((number.log2 : Int) - 23) ∧
      2 ^ 23 ≤ mantissa ∧ mantissa * 2 ^ (number.log2 - 23) = number * 2 ^ (23 - number.log2) := by
  rw [read_ofNat]
  exact holds.read_nearest nonzero (by decide)

/-- The magnitude of an integer that single precision holds is the integer. -/
theorem toIntWithin_of_holds {low high : Int} (holds : Format.single.Holds number) :
    (read (Scalar.ofNat number)).toIntWithin low high = max low (min high number) := by
  by_cases zero : number = 0
  · subst zero
    have isZero : read (Scalar.ofNat 0) = .finite false 0 (-149) := by decide +kernel
    rw [isZero, Reading.toIntWithin, Reading.roundMagnitude_eq 0 (by simp)]
    rfl
  · obtain ⟨mantissa, isRead, -, same⟩ := read_ofNat_of_holds holds zero
    rw [isRead, Reading.toIntWithin, Reading.roundMagnitude_eq number]
    · rfl
    · rwa [show ((number.log2 : Int) - 23).toNat = number.log2 - 23 by omega,
        show (-((number.log2 : Int) - 23)).toNat = 23 - number.log2 by omega]

/-- An integer that single precision holds is the integer part of its value. -/
theorem toNat_ofNat (holds : Format.single.Holds number) (small : number < 2 ^ 64) :
    Scalar.toNat (Scalar.ofNat number : Float32) = number := by
  show ((read (Scalar.ofNat number)).toIntWithin 0 (2 ^ 64 - 1)).toNat = number
  rw [toIntWithin_of_holds holds]
  omega

/-- Single precision holds the integers of 24 bits. -/
theorem holds_of_lt (small : number < 2 ^ 24) : Format.single.Holds number := by
  have short : number.log2 ≤ 23 := by
    by_cases zero : number = 0
    · rw [zero]
      decide
    · have bounded := (Nat.log2_lt zero).mpr small
      omega
  refine ⟨Nat.lt_of_le_of_lt (Nat.succ_le_succ short) (by decide), ?_⟩
  show 2 ^ (number.log2 - 23) ∣ number
  rw [Nat.sub_eq_zero_of_le short]
  exact Nat.one_dvd _

/-! ## Comparisons -/

/-- Of two positive numbers the one with the greater exponent is greater, or else the one with the
greater mantissa. -/
theorem compare_finite {first second : Nat} {low high : Int} (positive : 0 < first)
    (nonzero : 0 < second) :
    (Reading.finite false first low).unpacked.compare (Reading.finite false second high).unpacked =
      some ((compare low high).then (compare first second)) := by
  rw [Reading.unpacked_finite _ _ positive, Reading.unpacked_finite _ _ nonzero]
  rfl

/-- An integer that was written without a fraction has itself as its integer part. -/
theorem toNat_write_integer (short : number < 2 ^ 24) :
    Scalar.toNat (ofPattern (Format.single.write (.finite false number 0))) = number := by
  have isPattern : Format.single.write (.finite false number 0) = Format.single.ofInt number := by
    have noSign : decide ((number : Int) < 0) = false := decide_eq_false (by omega)
    rw [Format.write, Format.ofInt, Int.natAbs_natCast, noSign]
    simp
  rw [isPattern]
  exact toNat_ofNat (holds_of_lt short) (by omega)

/-- A number is at most an integer of 24 bits if it is not greater, exponent for exponent. -/
theorem roundMagnitude_down_le {limit : Nat} (isRead : read value = .finite false mantissa exponent)
    (normal : 2 ^ 23 ≤ limit) (short : number.log2 ≤ 23)
    (isNumber : limit = number * 2 ^ (23 - number.log2))
    (notAbove : exponent < (number.log2 : Int) - 23 ∨
      exponent = (number.log2 : Int) - 23 ∧ mantissa ≤ limit) :
    Reading.roundMagnitude .down false mantissa exponent ≤ number := by
  obtain ⟨small, -, -⟩ := bounds_of_read isRead
  obtain ⟨drop, isDrop⟩ : ∃ drop : Nat, exponent = -((23 - number.log2 + drop : Nat) : Int) :=
    ⟨((number.log2 : Int) - 23 - exponent).toNat, by omega⟩
  have floor : Reading.roundMagnitude .down false mantissa exponent =
      mantissa / 2 ^ (23 - number.log2 + drop) := by
    have up : exponent.toNat = 0 := by omega
    have down : (-exponent).toNat = 23 - number.log2 + drop := by omega
    unfold Reading.roundMagnitude
    rw [up, down]
    simp
  rw [floor]
  refine Nat.div_le_of_le_mul ?_
  calc mantissa ≤ limit * 2 ^ drop := by
        rcases notAbove with lower | ⟨same, atMost⟩
        · have doubled : 2 ^ 1 ≤ 2 ^ drop := Nat.pow_le_pow_right (by decide) (by omega)
          calc mantissa ≤ 2 ^ 23 * 2 ^ 1 := by omega
            _ ≤ limit * 2 ^ drop := Nat.mul_le_mul normal doubled
        · exact Nat.le_trans atMost (Nat.le_mul_of_pos_right _ (Nat.two_pow_pos _))
    _ = 2 ^ (23 - number.log2 + drop) * number := by
        rw [isNumber, Nat.mul_assoc, ← Nat.pow_add, Nat.mul_comm]

/-- A value that is not above an integer, nor below zero, has no greater integer part. -/
theorem toNat_round_down_le (short : number < 2 ^ 24) (nonzero : number ≠ 0)
    (notBelow : Scalar.less value 0.0 = false)
    (notAbove : Scalar.less (Scalar.ofNat number) value = false) :
    Scalar.toNat (Scalar.round .down value) ≤ number := by
  obtain ⟨limit, isLimit, normal, isNumber⟩ := read_ofNat_of_holds (holds_of_lt short) nonzero
  have log : number.log2 ≤ 23 := by
    have bounded := (Nat.log2_lt nonzero).mpr short
    omega
  rw [Nat.sub_eq_zero_of_le log, Nat.pow_zero, Nat.mul_one] at isNumber
  rw [less_eq, unpack_toModel] at notBelow notAbove
  rw [unpack_toModel, isLimit] at notAbove
  have zero : (0.0 : Float32).toModel.unpack = .zero .positive := rfl
  rw [zero] at notBelow
  show Scalar.toNat (ofPattern (Format.single.write ((read value).round .down))) ≤ number
  cases isRead : read value with
  | notANumber =>
      have isZero : Scalar.toNat (ofPattern (Format.single.write (Reading.notANumber.round .down))) =
        0 := by decide +kernel
      rw [isZero]
      exact Nat.zero_le _
  | infinite negative =>
      rw [isRead] at notBelow notAbove
      cases negative with
      | true => cases notBelow
      | false =>
          rw [Reading.unpacked_finite _ _ (by omega)] at notAbove
          cases notAbove
  | finite negative mantissa exponent =>
      rw [isRead] at notBelow notAbove
      cases mantissa with
      | zero =>
          have isZero (negative : Bool) : Scalar.toNat (ofPattern (Format.single.write
              ((Reading.finite negative 0 0)))) = 0 := by
            revert negative
            decide +kernel
          have rounds : (Reading.finite negative 0 exponent).round .down = .finite negative 0 0 := by
            rw [Reading.round, Reading.roundMagnitude_eq 0 (by simp)]
          rw [rounds, isZero]
          exact Nat.zero_le _
      | succ mantissa =>
          cases negative with
          | true => cases notBelow
          | false =>
              have order : ¬(compare ((number.log2 : Int) - 23) exponent).then
                  (compare limit (mantissa + 1)) = .lt := by
                rw [Float.Model.UnpackedFloat.lt, compare_finite (by omega) (Nat.succ_pos _)] at notAbove
                simpa using notAbove
              rw [Ordering.then_eq_lt] at order
              simp only [Int.compare_eq_lt, Int.compare_eq_eq, Nat.compare_eq_lt] at order
              have isFloor := roundMagnitude_down_le isRead normal log isNumber (by omega)
              rw [Reading.round, toNat_write_integer (by omega)]
              exact isFloor

/-! ## Integer parts -/

/-- The integer part of a magnitude drops its fraction. -/
theorem roundMagnitude_towardZero :
    Reading.roundMagnitude .towardZero negative mantissa exponent =
      mantissa * 2 ^ exponent.toNat / 2 ^ (-exponent).toNat :=
  rfl

/-- The value of one. -/
theorem read_one : read 1.0 = .finite false (2 ^ 23) (-23) := by
  decide +kernel

/-- Single precision holds the integer part of a value of which it reads the fields. -/
theorem holds_roundMagnitude (isRead : read value = .finite negative mantissa exponent)
    (short : mantissa * 2 ^ exponent.toNat / 2 ^ (-exponent).toNat < 2 ^ 63) :
    Format.single.Holds (mantissa * 2 ^ exponent.toNat / 2 ^ (-exponent).toNat) := by
  obtain ⟨small, -, -⟩ := bounds_of_read isRead
  rcases Int.lt_or_le exponent 0 with fraction | whole
  · rw [show exponent.toNat = 0 by omega, Nat.pow_zero, Nat.mul_one]
    exact holds_of_lt (Nat.lt_of_le_of_lt (Nat.div_le_self _ _) small)
  · rw [show (-exponent).toNat = 0 by omega, Nat.pow_zero, Nat.div_one] at short ⊢
    by_cases zero : mantissa = 0
    · rw [zero, Nat.zero_mul]
      exact holds_of_lt (by decide)
    · have nonzero : mantissa * 2 ^ exponent.toNat ≠ 0 :=
        Nat.mul_ne_zero zero (Nat.ne_of_gt (Nat.two_pow_pos _))
      have log : (mantissa * 2 ^ exponent.toNat).log2 < 63 :=
        (Nat.log2_lt nonzero).mpr short
      have shifted : (mantissa * 2 ^ exponent.toNat).log2 ≤ 23 + exponent.toNat := by
        refine Nat.le_of_lt_succ ((Nat.log2_lt nonzero).mpr ?_)
        calc mantissa * 2 ^ exponent.toNat < 2 ^ 24 * 2 ^ exponent.toNat :=
              Nat.mul_lt_mul_of_pos_right small (Nat.two_pow_pos _)
          _ = 2 ^ (23 + exponent.toNat + 1) := by rw [← Nat.pow_add]; congr 1; omega
      refine ⟨Nat.lt_trans (Nat.succ_lt_succ log) (by decide), ?_⟩
      show 2 ^ ((mantissa * 2 ^ exponent.toNat).log2 - 23) ∣ mantissa * 2 ^ exponent.toNat
      exact Nat.dvd_mul_left_of_dvd (Nat.pow_dvd_pow 2 (by omega)) mantissa

/-- Single precision holds the integer part of its values. -/
theorem holds_toNat (short : Scalar.toNat value < 2 ^ 63) :
    Format.single.Holds (Scalar.toNat value) := by
  have isToNat : Scalar.toNat value = ((read value).toIntWithin 0 (2 ^ 64 - 1)).toNat := rfl
  rw [isToNat] at short ⊢
  cases isRead : read value with
  | notANumber => exact holds_of_lt (by decide)
  | infinite negative =>
      cases negative with
      | true => exact holds_of_lt (by decide)
      | false =>
          rw [isRead] at short
          exact absurd short (by decide)
  | finite negative mantissa exponent =>
      rw [isRead, Reading.toIntWithin, roundMagnitude_towardZero] at short
      rw [Reading.toIntWithin, roundMagnitude_towardZero]
      have whole := holds_roundMagnitude isRead
      generalize mantissa * 2 ^ exponent.toNat / 2 ^ (-exponent).toNat = magnitude at short whole ⊢
      cases negative with
      | true =>
          have isZero : (max 0 (min (2 ^ 64 - 1) (-(magnitude : Int)))).toNat = 0 := by omega
          show Format.single.Holds (max 0 (min (2 ^ 64 - 1) (-(magnitude : Int)))).toNat
          rw [isZero]
          exact holds_of_lt (by decide)
      | false =>
          have isMagnitude (below : magnitude < 2 ^ 63) :
              (max 0 (min (2 ^ 64 - 1) (magnitude : Int))).toNat = magnitude := by omega
          have below : (max 0 (min (2 ^ 64 - 1) (magnitude : Int))).toNat < 2 ^ 63 := short
          show Format.single.Holds (max 0 (min (2 ^ 64 - 1) (magnitude : Int))).toNat
          rw [isMagnitude (by omega)]
          exact whole (by omega)

/-- A value that is at least one has an integer part. -/
theorem toNat_ne_zero (atLeast : Scalar.atMost 1.0 value = true) : Scalar.toNat value ≠ 0 := by
  rw [atMost_eq, unpack_toModel, unpack_toModel, read_one] at atLeast
  show ((read value).toIntWithin 0 (2 ^ 64 - 1)).toNat ≠ 0
  cases isRead : read value with
  | notANumber =>
      rw [isRead] at atLeast
      cases atLeast
  | infinite negative =>
      rw [isRead] at atLeast
      cases negative with
      | true => cases atLeast
      | false => decide
  | finite negative mantissa exponent =>
      obtain ⟨-, -, normal⟩ := bounds_of_read isRead
      rw [isRead] at atLeast
      rw [Reading.toIntWithin, roundMagnitude_towardZero]
      cases mantissa with
      | zero => cases negative <;> cases atLeast
      | succ mantissa =>
      cases negative with
      | true => cases atLeast
      | false =>
          rw [Float.Model.UnpackedFloat.le, compare_finite (by decide) (Nat.succ_pos _)] at atLeast
          have order : ¬(compare (-23) exponent).then (compare (2 ^ 23) (mantissa + 1)) = .gt :=
            Ordering.isLE_iff_ne_gt.1 (by simpa using atLeast)
          rw [Ordering.then_eq_gt] at order
          simp only [Int.compare_eq_gt, Int.compare_eq_eq, Nat.compare_eq_gt] at order
          have positive : 0 < (mantissa + 1) * 2 ^ exponent.toNat / 2 ^ (-exponent).toNat := by
            refine Nat.div_pos ?_ (Nat.two_pow_pos _)
            calc 2 ^ (-exponent).toNat ≤ 2 ^ 23 := Nat.pow_le_pow_right (by decide) (by omega)
              _ ≤ mantissa + 1 := by omega
              _ ≤ (mantissa + 1) * 2 ^ exponent.toNat :=
                Nat.le_mul_of_pos_right _ (Nat.two_pow_pos _)
          generalize (mantissa + 1) * 2 ^ exponent.toNat / 2 ^ (-exponent).toNat = magnitude
            at positive ⊢
          show (max 0 (min (2 ^ 64 - 1) (magnitude : Int))).toNat ≠ 0
          omega

/-- The value of an integer that single precision holds is at least one, if it is not zero. -/
theorem atMost_one_ofNat (holds : Format.single.Holds number) (nonzero : number ≠ 0) :
    Scalar.atMost 1.0 (Scalar.ofNat number : Float32) = true := by
  obtain ⟨mantissa, isRead, normal, -⟩ := read_ofNat_of_holds holds nonzero
  rw [atMost_eq, unpack_toModel, unpack_toModel, read_one, isRead, Float.Model.UnpackedFloat.le,
    compare_finite (by decide) (by omega)]
  have order : (compare (-23) ((number.log2 : Int) - 23)).then (compare (2 ^ 23) mantissa) ≠ .gt := by
    rw [ne_eq, Ordering.then_eq_gt]
    simp only [Int.compare_eq_gt, Int.compare_eq_eq, Nat.compare_eq_gt]
    omega
  simpa using Ordering.isLE_iff_ne_gt.2 order

/-- A size is the integer part of its value. -/
theorem toNat_downTo_ofNat (short : Scalar.toNat (Scalar.downTo 1.0 value) < 2 ^ 63) :
    Scalar.toNat (Scalar.downTo (1.0 : Float32)
      (Scalar.ofNat (Scalar.toNat (Scalar.downTo 1.0 value)))) =
      Scalar.toNat (Scalar.downTo 1.0 value) := by
  have holds := holds_toNat short
  have atLeast : Scalar.atMost 1.0 (Scalar.downTo 1.0 value) = true := by
    unfold Scalar.downTo
    split
    · assumption
    · decide +kernel
  have nonzero := toNat_ne_zero atLeast
  rw [Scalar.downTo, if_pos (atMost_one_ofNat holds nonzero), toNat_ofNat holds (by omega)]

end Float32Scalar
end Monochrome
