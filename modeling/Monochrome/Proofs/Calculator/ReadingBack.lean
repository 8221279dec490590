import Monochrome.Proofs.Calculator.Notation
import Monochrome.Proofs.Decimal.Shortest

/-!
# Real numbers are read as they were written

A real number is written in its fewest digits, or, if it has no fraction, with all digits of its integer
part and a zero after the point.  Either text spells a numeral that rounds to the number, so that the
number is read back; zero keeps its sign, and infinity and what is no number are read from their names.
Every program is therefore read as it was written.
-/

namespace Monochrome
namespace Numeral

/-! ## Digits and zeros -/

/-- Digits spell a number in base ten. -/
theorem ofDigits_eq (text : List Char) : ofDigits text = Nat.ofDigitChars 10 text 0 :=
  rfl

/-- Zeros before digits count nothing. -/
theorem ofDigits_zeros_append (count : Nat) (text : List Char) :
    ofDigits (List.replicate count '0' ++ text) = ofDigits text := by
  rw [ofDigits_eq, Nat.ofDigitChars_append, Nat.ofDigitChars_replicate_zero, Nat.mul_zero, ofDigits_eq]

/-- Zeros after digits are tens. -/
theorem ofDigits_append_zeros (text : List Char) (count : Nat) :
    ofDigits (text ++ List.replicate count '0') = ofDigits text * 10 ^ count := by
  rw [ofDigits_eq, Nat.ofDigitChars_append, Nat.ofDigitChars_replicate_zero, Nat.mul_comm, ofDigits_eq]

end Numeral

namespace Calculator
open Numeral

variable {negative : Bool} {whole fraction text : List Char}

/-- Zeros are digits. -/
theorem all_isDigit_zeros (count : Nat) : (List.replicate count '0').all Char.isDigit = true :=
  List.all_eq_true.2 fun _ isZero => (List.eq_of_mem_replicate isZero).symm ▸ rfl

/-! ## Numerals are read -/

/-- Digits around a point are read together, and those after it are counted. -/
theorem readNumeral?_point (nonempty : whole ≠ []) (areDigits : whole.all Char.isDigit = true)
    (follow : fraction.all Char.isDigit = true) :
    readNumeral? negative (whole ++ '.' :: fraction) =
      some ⟨negative, ofDigits (whole ++ fraction), -(fraction.length : Int)⟩ := by
  have isFraction := span_isDigit follow [] nofun
  rw [List.append_nil] at isFraction
  have isWhole := span_isDigit areDigits ('.' :: fraction) (by
    rintro _ ⟨⟩
    rfl)
  rw [readNumeral?, isWhole]
  simp only [isFraction]
  simp [nonempty, readExponent?]

/-- What is written for a numeral is read as one that stands for the same number. -/
theorem readNumeral?_positional (negative : Bool) (coefficient : Nat) (exponent : Int) :
    ∃ numeral, readNumeral? negative (positional coefficient exponent) = some numeral ∧
      numeral.negative = negative ∧ numeral.magnitude = coefficient * 10 ^ exponent := by
  have areDigits := all_isDigit_digits coefficient
  have nonempty : digits coefficient ≠ [] := Nat.toDigits_ne_nil
  have isNumber := ofDigits_digits coefficient
  rw [positional]
  generalize digits coefficient = text at *
  dsimp only
  split
  · rename_i isZero
    refine ⟨⟨negative, 0, 0⟩, readNumeral?_whole (by decide) (by decide), rfl, ?_⟩
    rw [magnitude, isZero]
    simp
  split
  · rename_i whole
    refine ⟨_, readNumeral?_whole (by simp [nonempty])
      (by rw [List.all_append, areDigits, all_isDigit_zeros]; rfl), rfl, ?_⟩
    rw [magnitude, ofDigits_append_zeros, isNumber, mul_zpow_eq_div coefficient exponent,
      show (-exponent).toNat = 0 by omega]
    simp
  rename_i notWhole
  split
  · rename_i inside
    have isPoint : ((text.drop (text.length + exponent).toNat).length : Int) = -exponent := by
      rw [List.length_drop]
      omega
    refine ⟨_, readNumeral?_point ?_ ?_ ?_, rfl, ?_⟩
    · rw [ne_eq, List.take_eq_nil_iff]
      simp only [nonempty, or_false]
      omega
    · exact List.all_eq_true.2 fun _ inWhole =>
        List.all_eq_true.1 areDigits _ (List.mem_of_mem_take inWhole)
    · exact List.all_eq_true.2 fun _ inFraction =>
        List.all_eq_true.1 areDigits _ (List.mem_of_mem_drop inFraction)
    · rw [magnitude, List.take_append_drop, isNumber, isPoint, neg_neg]
  · rename_i outside
    obtain ⟨fraction, isFraction⟩ : ∃ fraction,
        List.replicate (-(text.length + exponent)).toNat '0' ++ text = fraction := ⟨_, rfl⟩
    have isSpelled : ofDigits (['0'] ++ fraction) = coefficient := by
      rw [← isNumber, ← isFraction]
      exact ofDigits_zeros_append ((-(text.length + exponent)).toNat + 1) text
    have isPoint : (fraction.length : Int) = -exponent := by
      rw [← isFraction, List.length_append, List.length_replicate]
      omega
    have follow : fraction.all Char.isDigit = true := by
      rw [← isFraction, List.all_append, areDigits, all_isDigit_zeros]
      rfl
    rw [List.cons_append, List.cons_append, isFraction]
    refine ⟨_, @readNumeral?_point negative ['0'] fraction (by decide) (by decide) follow, rfl, ?_⟩
    rw [magnitude, isSpelled, isPoint, neg_neg]

/-- What is written for a numeral begins with a digit. -/
theorem isDigit_head_positional (coefficient : Nat) (exponent : Int) :
    ∀ character ∈ (positional coefficient exponent).head?, character.isDigit = true := by
  have begins := isDigit_head_digits coefficient
  have nonempty : digits coefficient ≠ [] := Nat.toDigits_ne_nil
  rw [positional]
  generalize digits coefficient = text at *
  obtain ⟨first, more, rfl⟩ := List.exists_cons_of_ne_nil nonempty
  have isFirst := begins [] first rfl
  dsimp only
  split
  · rintro _ ⟨⟩
    rfl
  split
  · rintro _ ⟨⟩
    exact isFirst
  split
  · rename_i inside
    obtain ⟨count, isCount⟩ : ∃ count, ((first :: more).length + exponent).toNat = count + 1 :=
      ⟨((first :: more).length + exponent).toNat - 1, by omega⟩
    rw [isCount]
    rintro _ ⟨⟩
    exact isFirst
  · rintro _ ⟨⟩
    rfl

/-! ## Real numbers are read -/

variable {mantissa : Nat} {exponent : Int}

/-- A numeral that rounds to a number, or is zero as the number is, is read as it. -/
theorem readReal?_of_roundsTo {value : Float} {numeral : Numeral}
    (isRead : FloatScalar.read value = .finite negative mantissa exponent)
    (begins : ∀ character ∈ text.head?, character.isDigit = true)
    (isNumeral : readNumeral? negative text = some numeral) (sameSign : numeral.negative = negative)
    (rounds : if mantissa = 0 then numeral.magnitude = 0 else
      Format.double.RoundsTo numeral.magnitude mantissa exponent) :
    readReal? (if negative then '-' :: text else text) = some value := by
  obtain ⟨has, isValue⟩ := FloatScalar.eq_of_read_finite isRead
  rw [readReal?_of_splitSign (splitSign_sign negative begins) begins, isNumeral, Option.map_some, isValue]
  split at rounds
  · rename_i isZero
    have noCoefficient : numeral.coefficient = 0 := by
      have power : (10 : ℚ) ^ numeral.exponent ≠ 0 := zpow_ne_zero _ (by norm_num)
      rw [magnitude, mul_eq_zero, or_iff_left power, Nat.cast_eq_zero] at rounds
      exact rounds
    have leastExponent : exponent = Format.double.minExponent := by
      refine has.leads.resolve_right fun leads => ?_
      have power := Nat.two_pow_pos Format.double.fractionBits
      omega
    rw [nearest_of_zero _ noCoefficient, sameSign, isZero, leastExponent, Format.pattern, sub_self,
      Int.toNat_zero, Nat.zero_mul]
  · rename_i nonzero
    rw [nearest_of_roundsTo has nonzero rounds, sameSign]

/-- The integer part of an integral number is the number. -/
theorem roundMagnitude_of_isInteger
    (isInteger : (Reading.finite negative mantissa exponent).isInteger = true) :
    (Reading.roundMagnitude .towardZero negative mantissa exponent : ℚ) = mantissa * 2 ^ exponent := by
  have power := zpow_eq_div (two_ne_zero : (2 : ℚ) ≠ 0) exponent
  rw [Reading.isInteger, beq_iff_eq] at isInteger
  have isWhole := Nat.div_mul_cancel (Nat.dvd_of_mod_eq_zero isInteger)
  rw [power, ← mul_div_assoc, eq_div_iff (by positivity)]
  exact_mod_cast isWhole

/-- What is written for an integral number is read as the number. -/
theorem readReal?_printIntegral {value : Float}
    (isRead : FloatScalar.read value = .finite negative mantissa exponent)
    (isInteger : (Reading.finite negative mantissa exponent).isInteger = true) :
    readReal? (printIntegral negative mantissa exponent) = some value := by
  have isNumeral := @readNumeral?_point negative
    (digits (Reading.roundMagnitude .towardZero negative mantissa exponent)) ['0']
    Nat.toDigits_ne_nil (all_isDigit_digits _) rfl
  refine readReal?_of_roundsTo isRead (isDigit_head_digits _ _) isNumeral rfl ?_
  have isValue : magnitude ⟨negative, ofDigits (digits (Reading.roundMagnitude .towardZero negative
      mantissa exponent) ++ ['0']), -(['0'].length : Int)⟩ = mantissa * 2 ^ exponent := by
    rw [magnitude, ← roundMagnitude_of_isInteger isInteger]
    have isSpelled := ofDigits_append_zeros
      (digits (Reading.roundMagnitude .towardZero negative mantissa exponent)) 1
    rw [ofDigits_digits, List.replicate_one] at isSpelled
    have tenth : ((10 ^ 1 : Nat) : ℚ) * 10 ^ (-((1 : Nat) : Int)) = 1 := by norm_num
    rw [isSpelled, List.length_singleton, Nat.cast_mul, mul_assoc, tenth, mul_one]
  rw [isValue]
  split
  · rename_i isZero
    rw [isZero, Nat.cast_zero, zero_mul]
  · exact Format.roundsTo_self _ _ _

/-- What is written for a real number is read as the number. -/
theorem readReal?_printReal (value : Float) : readReal? (printReal value) = some value := by
  rw [printReal]
  cases isRead : FloatScalar.read value with
  | finite negative mantissa exponent =>
      dsimp only
      split
      · rename_i isInteger
        exact readReal?_printIntegral isRead isInteger
      · rw [write]
        obtain ⟨numeral, isNumeral, sameSign, sameValue⟩ := readNumeral?_positional negative
          (shortest .double negative mantissa exponent).coefficient
          (shortest .double negative mantissa exponent).exponent
        refine readReal?_of_roundsTo isRead (isDigit_head_positional _ _) isNumeral sameSign ?_
        rw [sameValue]
        split
        · rename_i isZero
          rw [shortest, if_pos isZero, Nat.cast_zero, zero_mul]
        · rename_i nonzero
          exact roundsTo_shortest negative (FloatScalar.eq_of_read_finite isRead).1 nonzero (by decide)
  | infinite negative =>
      rw [FloatScalar.eq_of_read_infinite isRead]
      cases negative <;> rfl
  | notANumber =>
      rw [FloatScalar.eq_of_read_notANumber isRead]
      rfl

/-! ## Programs are read -/

namespace Instruction

mutual

/-- The real numbers of an instruction are read back from what is written for them. -/
theorem readsBack : ∀ instruction : Instruction Float, instruction.ReadsBack
  | .integer _ => trivial
  | .real value => readReal?_printReal value
  | .operator _ => trivial
  | .procedure body => allReadBack body

/-- The real numbers of instructions are read back from what is written for them. -/
theorem allReadBack : ∀ program : List (Instruction Float), AllReadBack program
  | [] => trivial
  | instruction :: rest => ⟨instruction.readsBack, allReadBack rest⟩

end

end Instruction

/-- Every program is read as it was written: integers as integers, real numbers as real numbers, and each
procedure at its place.  So a text that is read, written and read again gives what it gave before. -/
theorem read_print_self :
    (∀ program : Program Float, read (print program) = .ok program) ∧
      ∀ bytes : Bytes, (read bytes >>= fun program => read (print program)) = read bytes := by
  have readsBack (program : Program Float) : read (print program) = .ok program :=
    read_print (Instruction.allReadBack program)
  refine ⟨readsBack, fun bytes => ?_⟩
  simp only [readsBack]
  exact bind_pure (read bytes)

end Calculator
end Monochrome
