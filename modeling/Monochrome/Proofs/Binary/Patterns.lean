import Monochrome.Scalar

/-!
# Machine numbers are read as their patterns

A machine number is kept as a pattern of bits, and computed with after its sign, exponent and
mantissa are taken apart.  Both views agree with what a format reads: taking a pattern apart gives
the number that is read, and putting it together again gives the pattern, unless it is no number.
-/

namespace Monochrome

open Float.Model (UnpackedFloat)
open Float.Model.UnpackedFloat

/-- The sign of a number that is or is not negative. -/
def signOf (negative : Bool) : Sign :=
  if negative then .negative else .positive

/-- What is computed with where a number is read. -/
def Reading.unpacked : Reading → UnpackedFloat
  | .finite negative 0 _ => .zero (signOf negative)
  | .finite negative (mantissa + 1) exponent =>
    .finite (signOf negative) (mantissa + 1) exponent (Nat.succ_pos mantissa)
  | .infinite negative => .infinity (signOf negative)
  | .notANumber => .notANumber

/-- A number that is not zero is computed with as it is read. -/
theorem Reading.unpacked_finite {mantissa : Nat} (negative : Bool) (exponent : Int)
    (nonzero : 0 < mantissa) : (Reading.finite negative mantissa exponent).unpacked =
      .finite (signOf negative) mantissa exponent nonzero := by
  cases mantissa with
  | zero => cases nonzero
  | succ => rfl

/-- The format of machine numbers with the same fields. -/
def Format.ofMachine (machine : Float.Model.Format) : Format :=
  ⟨machine.mantissaBitsWithoutImplicit, machine.exponentBits⟩

namespace MachineNumber

variable {machine : Float.Model.Format} (bits : BitVec machine.numBits)

/-! ## The fields of a pattern -/

/-- The number of joined bits. -/
theorem toNat_append {high low : Nat} (first : BitVec high) (second : BitVec low) :
    (first ++ second).toNat = first.toNat * 2 ^ low + second.toNat := by
  rw [BitVec.toNat_append, ← Nat.shiftLeft_add_eq_or_of_lt second.isLt, Nat.shiftLeft_eq]

theorem toNat_unpackMantissa :
    (unpackMantissa bits).toNat = bits.toNat % 2 ^ machine.mantissaBitsWithoutImplicit := by
  have positive := machine.hm
  simp only [unpackMantissa, BitVec.toNat_cast, BitVec.extractLsb_toNat, Nat.shiftRight_zero]
  congr 2
  omega

theorem toNat_unpackExponent :
    (unpackExponent bits).toNat =
      bits.toNat / 2 ^ machine.mantissaBitsWithoutImplicit % 2 ^ machine.exponentBits := by
  have positive := machine.he
  simp only [unpackExponent, BitVec.toNat_cast, BitVec.extractLsb_toNat, Nat.shiftRight_eq_div_pow]
  congr 2
  omega

theorem toNat_unpackSign :
    (unpackSign bits).toNat =
      bits.toNat / 2 ^ (machine.mantissaBitsWithoutImplicit + machine.exponentBits) := by
  have bounded : bits.toNat < 2 ^ (machine.mantissaBitsWithoutImplicit + machine.exponentBits) * 2 := by
    have isLt : bits.toNat < 2 ^ (1 + machine.exponentBits + machine.mantissaBitsWithoutImplicit) :=
      bits.isLt
    rwa [Nat.add_assoc, Nat.add_comm 1, Nat.pow_succ, Nat.add_comm machine.exponentBits] at isLt
  have isBit := Nat.div_lt_of_lt_mul bounded
  rw [← Nat.mod_eq_of_lt isBit]
  unfold unpackSign
  simp [Nat.shiftRight_eq_div_pow]

/-- The sign bit of a pattern tells whether the number that is read is negative. -/
theorem ofBitVec_unpackSign :
    Sign.ofBitVec (unpackSign bits) =
      signOf (decide ((Format.ofMachine machine).signBit ≤ bits.toNat)) := by
  have isZero : unpackSign bits = 0#1 ↔
      ¬(Format.ofMachine machine).signBit ≤ bits.toNat := by
    rw [← BitVec.toNat_inj, toNat_unpackSign, Nat.not_le]
    exact Nat.div_eq_zero_iff_lt (Nat.two_pow_pos _)
  rw [Sign.ofBitVec, signOf]
  by_cases negative : (Format.ofMachine machine).signBit ≤ bits.toNat
  · rw [if_neg fun zero => isZero.mp zero negative, if_pos (decide_eq_true negative)]
  · rw [if_pos (isZero.mpr negative), if_neg (by simpa using negative)]

/-- The two ways to count exponents. -/
theorem minExponent_ofMachine (machine : Float.Model.Format) :
    (Format.ofMachine machine).minExponent =
      1 - ((machine.exponentBias : Int) + machine.mantissaBitsWithoutImplicit) := by
  have positive : 0 < 2 ^ (machine.exponentBits - 1) := Nat.two_pow_pos _
  show (2 : Int) - (2 ^ (machine.exponentBits - 1) : Nat) - machine.mantissaBitsWithoutImplicit =
    1 - (((2 ^ (machine.exponentBits - 1) - 1 : Nat) : Int) + machine.mantissaBitsWithoutImplicit)
  omega

/-! ## Taking a pattern apart -/

section Cases

variable {bits}

/-- A pattern of infinity is taken apart as infinity. -/
theorem unpack_of_infinite (allOnes : unpackExponent bits = -1#_)
    (noMantissa : unpackMantissa bits = 0#_) :
    unpack machine bits = .infinity (Sign.ofBitVec (unpackSign bits)) :=
  (if_pos allOnes).trans (if_pos noMantissa)

/-- A pattern of no number is taken apart as none. -/
theorem unpack_of_none (allOnes : unpackExponent bits = -1#_)
    (someMantissa : unpackMantissa bits ≠ 0#_) : unpack machine bits = .notANumber :=
  (if_pos allOnes).trans (if_neg someMantissa)

variable (finite : unpackExponent bits ≠ -1#_)
include finite

/-- A pattern of zero is taken apart as zero. -/
theorem unpack_of_zero (noExponent : unpackExponent bits = 0#_)
    (noMantissa : unpackMantissa bits = 0#_) :
    unpack machine bits = .zero (Sign.ofBitVec (unpackSign bits)) :=
  (if_neg finite).trans ((if_pos noExponent).trans (dif_pos noMantissa))

/-- A pattern without exponent is taken apart without a leading bit. -/
theorem unpack_of_subnormal (noExponent : unpackExponent bits = 0#_)
    (someMantissa : unpackMantissa bits ≠ 0#_) (positive : 0 < (unpackMantissa bits).toNat) :
    unpack machine bits = .finite (Sign.ofBitVec (unpackSign bits)) (unpackMantissa bits).toNat
      ((unpackExponent bits).toNat -
        (machine.exponentBias + machine.mantissaBitsWithoutImplicit) + 1) positive :=
  (if_neg finite).trans ((if_pos noExponent).trans (dif_neg someMantissa))

/-- A pattern with an exponent is taken apart with a leading bit. -/
theorem unpack_of_normal (someExponent : unpackExponent bits ≠ 0#_)
    (positive : 0 < 2 ^ machine.mantissaBitsWithoutImplicit + (unpackMantissa bits).toNat) :
    unpack machine bits = .finite (Sign.ofBitVec (unpackSign bits))
      (2 ^ machine.mantissaBitsWithoutImplicit + (unpackMantissa bits).toNat)
      ((unpackExponent bits).toNat -
        (machine.exponentBias + machine.mantissaBitsWithoutImplicit)) positive := by
  have joined : (1#1 ++ unpackMantissa bits).toNat =
      2 ^ machine.mantissaBitsWithoutImplicit + (unpackMantissa bits).toNat := by
    rw [toNat_append]
    simp
  generalize 2 ^ machine.mantissaBitsWithoutImplicit + (unpackMantissa bits).toNat = mantissa
    at joined positive ⊢
  subst joined
  exact (if_neg finite).trans (if_neg someExponent)

end Cases

/-- What is read of a pattern is told by its fields. -/
theorem read_eq :
    (Format.ofMachine machine).read bits.toNat =
      if unpackExponent bits = -1#_ then
        if unpackMantissa bits = 0#_ then
          .infinite (decide ((Format.ofMachine machine).signBit ≤ bits.toNat))
        else .notANumber
      else if unpackExponent bits = 0#_ then
        .finite (decide ((Format.ofMachine machine).signBit ≤ bits.toNat)) (unpackMantissa bits).toNat
          (Format.ofMachine machine).minExponent
      else
        .finite (decide ((Format.ofMachine machine).signBit ≤ bits.toNat))
          (2 ^ machine.mantissaBitsWithoutImplicit + (unpackMantissa bits).toNat)
          ((Format.ofMachine machine).minExponent + (unpackExponent bits).toNat - 1) := by
  have exponentField : bits.toNat % (Format.ofMachine machine).signBit /
      2 ^ machine.mantissaBitsWithoutImplicit = (unpackExponent bits).toNat := by
    rw [toNat_unpackExponent, Format.signBit, Format.ofMachine, Nat.pow_add,
      Nat.mod_mul_right_div_self]
  have mantissaField : bits.toNat % (Format.ofMachine machine).signBit %
      2 ^ machine.mantissaBitsWithoutImplicit = (unpackMantissa bits).toNat := by
    rw [toNat_unpackMantissa, Format.signBit, Format.ofMachine, Nat.pow_add, Nat.mod_mul_right_mod]
  have allOnes : unpackExponent bits = -1#_ ↔
      (unpackExponent bits).toNat = 2 ^ machine.exponentBits - 1 := by
    rw [← BitVec.toNat_inj, BitVec.neg_one_eq_allOnes, BitVec.toNat_allOnes]
  have noExponent : unpackExponent bits = 0#_ ↔ (unpackExponent bits).toNat = 0 := by
    rw [← BitVec.toNat_inj]
    rfl
  have noMantissa : unpackMantissa bits = 0#_ ↔ (unpackMantissa bits).toNat = 0 := by
    rw [← BitVec.toNat_inj]
    rfl
  rw [Format.read]
  simp only [show (Format.ofMachine machine).fractionBits = machine.mantissaBitsWithoutImplicit
    from rfl, show (Format.ofMachine machine).exponentBits = machine.exponentBits from rfl,
    exponentField, mantissaField, allOnes, noExponent, noMantissa]

/-- A pattern that is taken apart gives the number that it is read as. -/
theorem unpack_eq :
    unpack machine bits = ((Format.ofMachine machine).read bits.toNat).unpacked := by
  have least := minExponent_ofMachine machine
  rw [read_eq]
  by_cases allOnes : unpackExponent bits = -1#_
  · rw [if_pos allOnes]
    by_cases noMantissa : unpackMantissa bits = 0#_
    · rw [if_pos noMantissa, unpack_of_infinite allOnes noMantissa, ofBitVec_unpackSign]
      rfl
    · rw [if_neg noMantissa, unpack_of_none allOnes noMantissa]
      rfl
  · rw [if_neg allOnes]
    by_cases noExponent : unpackExponent bits = 0#_
    · rw [if_pos noExponent]
      by_cases noMantissa : unpackMantissa bits = 0#_
      · rw [unpack_of_zero allOnes noExponent noMantissa, ofBitVec_unpackSign, noMantissa]
        rfl
      · have positive : 0 < (unpackMantissa bits).toNat :=
          Nat.pos_of_ne_zero fun zero => noMantissa (BitVec.eq_of_toNat_eq zero)
        have exponent : ((unpackExponent bits).toNat : Int) -
            (machine.exponentBias + machine.mantissaBitsWithoutImplicit) + 1 =
              (Format.ofMachine machine).minExponent := by
          rw [noExponent, least]
          show (0 : Int) - _ + 1 = _
          omega
        rw [unpack_of_subnormal allOnes noExponent noMantissa positive,
          Reading.unpacked_finite _ _ positive, ofBitVec_unpackSign, exponent]
    · have positive : 0 < 2 ^ machine.mantissaBitsWithoutImplicit + (unpackMantissa bits).toNat :=
        Nat.add_pos_left (Nat.two_pow_pos _) _
      have exponent : ((unpackExponent bits).toNat : Int) -
          (machine.exponentBias + machine.mantissaBitsWithoutImplicit) =
            (Format.ofMachine machine).minExponent + (unpackExponent bits).toNat - 1 := by
        rw [least]
        omega
      rw [if_neg noExponent, unpack_of_normal allOnes noExponent positive,
        Reading.unpacked_finite _ _ positive, ofBitVec_unpackSign, exponent]

/-! ## Putting a pattern together -/

/-- A pattern is made of its fields. -/
theorem packComponents_unpack :
    packComponents machine (Sign.ofBitVec (unpackSign bits)) (unpackExponent bits)
      (unpackMantissa bits) = bits := by
  have signBits : (Sign.ofBitVec (unpackSign bits)).toBitVec = unpackSign bits := by
    generalize unpackSign bits = sign
    revert sign
    decide
  refine BitVec.eq_of_toNat_eq ?_
  rw [packComponents, toNat_append, toNat_append, signBits, toNat_unpackSign, toNat_unpackExponent,
    toNat_unpackMantissa, Nat.pow_add, ← Nat.div_div_eq_div_mul, Nat.div_add_mod',
    Nat.div_add_mod']

/-- A pattern with the fields of another one is that one. -/
theorem packComponents_eq {exponent : BitVec machine.exponentBits}
    {mantissa : BitVec machine.mantissaBitsWithoutImplicit}
    (isExponent : unpackExponent bits = exponent) (isMantissa : unpackMantissa bits = mantissa) :
    packComponents machine (Sign.ofBitVec (unpackSign bits)) exponent mantissa = bits := by
  subst isExponent isMantissa
  exact packComponents_unpack bits

/-- The leading bit of a mantissa with the implicit bit is that bit. -/
theorem log2_two_pow_add {width rest : Nat} (small : rest < 2 ^ width) :
    (2 ^ width + rest).log2 = width := by
  have nonzero : 2 ^ width + rest ≠ 0 := Nat.ne_of_gt (Nat.add_pos_left (Nat.two_pow_pos _) _)
  refine (Nat.log2_eq_iff nonzero).mpr ⟨Nat.le_add_right _ _, ?_⟩
  rw [Nat.pow_succ]
  omega

/-- A number is put together with its leading bit left out, unless its exponent is too great. -/
theorem pack_finite (sign : Sign) {mantissa : Nat} (exponent : Int) (positive : 0 < mantissa) :
    pack machine (.finite sign mantissa exponent positive) =
      if 2 ^ machine.exponentBits ≤ (exponent + machine.exponentBias +
          machine.mantissaBitsWithoutImplicit).toNat + 1 then packedInfinity machine sign
      else if mantissa.log2 + 1 = 1 + machine.mantissaBitsWithoutImplicit then
        packComponents machine sign (BitVec.ofNat _ (exponent + machine.exponentBias +
          machine.mantissaBitsWithoutImplicit).toNat) (BitVec.ofNat _ mantissa)
      else packComponents machine sign 0#_ (BitVec.ofNat _ mantissa) :=
  rfl

/-- A valid pattern is the same after it was taken apart and put together. -/
theorem pack_unpack (wide : 2 ≤ machine.exponentBits) (valid : machine.Valid bits) :
    pack machine (unpack machine bits) = bits := by
  have fieldBound := (unpackExponent bits).isLt
  have mantissaBound := (unpackMantissa bits).isLt
  by_cases allOnes : unpackExponent bits = -1#_
  · by_cases noMantissa : unpackMantissa bits = 0#_
    · rw [unpack_of_infinite allOnes noMantissa]
      exact packComponents_eq bits allOnes noMantissa
    · rw [unpack_of_none allOnes noMantissa]
      exact (valid.eq_packedNaN allOnes noMantissa).symm
  by_cases noExponent : unpackExponent bits = 0#_
  · by_cases noMantissa : unpackMantissa bits = 0#_
    · rw [unpack_of_zero allOnes noExponent noMantissa]
      exact packComponents_eq bits noExponent noMantissa
    · have isZero : (unpackExponent bits).toNat = 0 := by rw [noExponent]; rfl
      have nonzero : (unpackMantissa bits).toNat ≠ 0 := fun zero =>
        noMantissa (BitVec.eq_of_toNat_eq zero)
      have field : (((unpackExponent bits).toNat : Int) - (machine.exponentBias +
          machine.mantissaBitsWithoutImplicit) + 1 + machine.exponentBias +
            machine.mantissaBitsWithoutImplicit).toNat = 1 := by omega
      have fits : ¬2 ^ machine.exponentBits ≤ 1 + 1 := by
        have grows := Nat.pow_le_pow_right (show 0 < 2 by decide) wide
        omega
      have short : (unpackMantissa bits).toNat.log2 + 1 ≠ 1 + machine.mantissaBitsWithoutImplicit := by
        have bounded := (Nat.log2_lt nonzero).mpr mantissaBound
        omega
      rw [unpack_of_subnormal allOnes noExponent noMantissa (Nat.pos_of_ne_zero nonzero), pack_finite,
        field, if_neg fits, if_neg short, BitVec.ofNat_toNat, BitVec.setWidth_eq]
      exact packComponents_eq bits noExponent rfl
  · have field : (((unpackExponent bits).toNat : Int) - (machine.exponentBias +
        machine.mantissaBitsWithoutImplicit) + machine.exponentBias +
          machine.mantissaBitsWithoutImplicit).toNat = (unpackExponent bits).toNat := by omega
    have fits : ¬2 ^ machine.exponentBits ≤ (unpackExponent bits).toNat + 1 := by
      have notAllOnes : (unpackExponent bits).toNat ≠ 2 ^ machine.exponentBits - 1 := by
        intro same
        refine allOnes (BitVec.eq_of_toNat_eq ?_)
        rw [same, BitVec.neg_one_eq_allOnes, BitVec.toNat_allOnes]
      omega
    rw [unpack_of_normal allOnes noExponent (Nat.add_pos_left (Nat.two_pow_pos _) _), pack_finite,
      field, if_neg fits, if_pos (by rw [log2_two_pow_add mantissaBound, Nat.add_comm]),
      BitVec.ofNat_toNat, BitVec.setWidth_eq]
    refine packComponents_eq bits rfl (BitVec.eq_of_toNat_eq ?_)
    rw [BitVec.toNat_ofNat, Nat.add_mod_left, Nat.mod_eq_of_lt mantissaBound]

/-- No number is taken apart as no number only. -/
theorem eq_notANumber_of_unpacked {reading : Reading} (isNone : reading.unpacked = .notANumber) :
    reading = .notANumber := by
  cases reading with
  | finite negative mantissa exponent => cases mantissa <;> cases isNone
  | infinite negative => cases isNone
  | notANumber => rfl

/-- A pattern that was taken apart and put together is read as before. -/
theorem read_pack_unpack (wide : 2 ≤ machine.exponentBits) :
    (Format.ofMachine machine).read (pack machine (unpack machine bits)).toNat =
      (Format.ofMachine machine).read bits.toNat := by
  by_cases isNone : unpack machine bits = .notANumber
  · have unchanged : unpack machine (packedNaN machine) = .notANumber := by
      have someMantissa : (BitVec.ofNat machine.mantissaBitsWithoutImplicit 1 <<<
          (machine.mantissaBitsWithoutImplicit - 1)) ≠ 0#_ := by
        intro zero
        have within : machine.mantissaBitsWithoutImplicit - 1 < machine.mantissaBitsWithoutImplicit :=
          Nat.sub_lt machine.hm Nat.one_pos
        have bit := congrArg (fun mantissa =>
          mantissa.getLsbD (machine.mantissaBitsWithoutImplicit - 1)) zero
        simp [within] at bit
      refine unpack_of_none unpackExponent_packComponents ?_
      exact fun zero => someMantissa (unpackMantissa_packComponents.symm.trans zero)
    rw [unpack_eq] at isNone unchanged
    rw [unpack_eq, eq_notANumber_of_unpacked isNone]
    exact eq_notANumber_of_unpacked unchanged
  · rw [pack_unpack bits wide ⟨fun allOnes someMantissa => ?_⟩]
    exact absurd (unpack_of_none allOnes someMantissa) isNone

end MachineNumber

/-! ## Single and double precision -/

namespace Float32Scalar

/-- A number of single precision is computed with as it is read. -/
theorem unpack_toModel (value : Float32) : value.toModel.unpack = (read value).unpacked :=
  @MachineNumber.unpack_eq .binary32 value.toBits.toBitVec

/-- The number of a pattern is read as the pattern. -/
theorem read_ofPattern {bits : Nat} (small : bits < 2 ^ 32) :
    read (ofPattern bits) = Format.single.read bits := by
  have same := @MachineNumber.read_pack_unpack .binary32 (UInt32.ofNat bits).toBitVec (by decide)
  have isBits : (UInt32.ofNat bits).toBitVec.toNat = bits := by
    show (UInt32.ofNat bits).toNat = bits
    rw [UInt32.toNat_ofNat_of_lt' small]
  rw [isBits] at same
  exact same

end Float32Scalar

namespace FloatScalar

/-- The number of a pattern is read as the pattern. -/
theorem read_ofPattern {bits : Nat} (small : bits < 2 ^ 64) :
    read (ofPattern bits) = Format.double.read bits := by
  have same := @MachineNumber.read_pack_unpack .binary64 (UInt64.ofNat bits).toBitVec (by decide)
  have isBits : (UInt64.ofNat bits).toBitVec.toNat = bits := by
    show (UInt64.ofNat bits).toNat = bits
    rw [UInt64.toNat_ofNat_of_lt' small]
  rw [isBits] at same
  exact same

end FloatScalar
end Monochrome
