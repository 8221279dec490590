/-!
# Binary floating-point formats

The real numbers of documents have single precision, those of calculator programs double
precision.  A format is given by the widths of its two fields.  `Format.read` says what a
bit pattern stands for, `Format.nearest` gives the pattern closest to a quotient of natural
numbers, ties going to the even one.  Changing the precision, rounding to an integer and
reading a decimal numeral are all instances of these two.
-/

namespace Monochrome

-- Powers are read the same way whatever else is imported.
attribute [instance (1100), default_instance 10001] instPowNat

/-- What a bit pattern stands for; a finite number is `mantissa * 2 ^ exponent` up to sign. -/
inductive Reading
  | finite (negative : Bool) (mantissa : Nat) (exponent : Int)
  | infinite (negative : Bool)
  | notANumber
deriving DecidableEq, Repr

/-- The four ways in which a number is rounded to an integer. -/
inductive IntegerRounding
  | towardZero
  | down
  | up
  /-- To the nearest integer, a half going away from zero. -/
  | nearest
deriving DecidableEq, Repr

/-- An interchange format with an implicit leading bit. -/
structure Format where
  fractionBits : Nat
  exponentBits : Nat
deriving DecidableEq, Repr

namespace Format

/-- Single precision. -/
def single : Format := ⟨23, 8⟩

/-- Double precision. -/
def double : Format := ⟨52, 11⟩

/-- The exponent of the unit of the smallest numbers. -/
def minExponent (format : Format) : Int :=
  2 - (2 ^ (format.exponentBits - 1) : Nat) - format.fractionBits

/-- The pattern of positive infinity. -/
def infinity (format : Format) : Nat :=
  (2 ^ format.exponentBits - 1) * 2 ^ format.fractionBits

/-- The pattern in which only the sign is set. -/
def signBit (format : Format) : Nat :=
  2 ^ (format.fractionBits + format.exponentBits)

/-- The pattern of the result that is no number. -/
def quietNaN (format : Format) : Nat :=
  format.infinity + 2 ^ (format.fractionBits - 1)

/-- What a bit pattern stands for. -/
def read (format : Format) (bits : Nat) : Reading :=
  let negative := decide (format.signBit ≤ bits)
  let magnitude := bits % format.signBit
  let exponent := magnitude / 2 ^ format.fractionBits
  let fraction := magnitude % 2 ^ format.fractionBits
  if exponent = 2 ^ format.exponentBits - 1 then
    if fraction = 0 then .infinite negative else .notANumber
  else if exponent = 0 then
    .finite negative fraction format.minExponent
  else
    .finite negative (2 ^ format.fractionBits + fraction) (format.minExponent + exponent - 1)

/-- The integer nearest to a quotient, a half going to the even neighbour. -/
def roundHalfEven (numerator denominator : Nat) : Nat :=
  let quotient := numerator / denominator
  let remainder := numerator % denominator
  if 2 * remainder < denominator then quotient
  else if denominator < 2 * remainder then quotient + 1
  else quotient + quotient % 2

/-- The pattern of the number nearest to a quotient, without sign.  The exponent is chosen so
that the quotient of the scaled numbers fills the mantissa, or is the least one; quotients
beyond the largest number round to infinity. -/
def nearest (format : Format) (numerator denominator : Nat) : Nat :=
  if numerator = 0 then 0
  else
    let estimate : Int := numerator.log2 - (denominator.log2 : Int) - format.fractionBits
    let tooHigh : Bool :=
      numerator * 2 ^ (-estimate).toNat <
        denominator * 2 ^ estimate.toNat * 2 ^ format.fractionBits
    let exponent := max (if tooHigh then estimate - 1 else estimate) format.minExponent
    let mantissa :=
      roundHalfEven (numerator * 2 ^ (-exponent).toNat) (denominator * 2 ^ exponent.toNat)
    min ((exponent - format.minExponent).toNat * 2 ^ format.fractionBits + mantissa)
      format.infinity

/-- A magnitude with a sign. -/
def withSign (format : Format) (negative : Bool) (magnitude : Nat) : Nat :=
  if negative then format.signBit + magnitude else magnitude

/-- The pattern nearest to what another pattern stands for. -/
def write (format : Format) : Reading → Nat
  | .finite negative mantissa exponent =>
    format.withSign negative
      (format.nearest (mantissa * 2 ^ exponent.toNat) (2 ^ (-exponent).toNat))
  | .infinite negative => format.withSign negative format.infinity
  | .notANumber => format.quietNaN

/-- The pattern nearest to an integer. -/
def ofInt (format : Format) (number : Int) : Nat :=
  format.withSign (number < 0) (format.nearest number.natAbs 1)

end Format

namespace Reading

/-- The integer part of the magnitude of a number after rounding. -/
def roundMagnitude (rounding : IntegerRounding) (negative : Bool) (mantissa : Nat)
    (exponent : Int) : Nat :=
  let unit := 2 ^ (-exponent).toNat
  let scaled := mantissa * 2 ^ exponent.toNat
  let whole := scaled / unit
  let remainder := scaled % unit
  let away : Bool :=
    match rounding with
    | .towardZero => false
    | .down => negative && remainder != 0
    | .up => !negative && remainder != 0
    | .nearest => unit ≤ 2 * remainder
  if away then whole + 1 else whole

/-- A number rounded to an integer; what is not finite stays as it is. -/
def round (rounding : IntegerRounding) : Reading → Reading
  | .finite negative mantissa exponent =>
    .finite negative (roundMagnitude rounding negative mantissa exponent) 0
  | other => other

/-- The integer part of a number, within the given bounds; zero if it is no number. -/
def toIntWithin (low high : Int) : Reading → Int
  | .finite negative mantissa exponent =>
    let magnitude : Int := roundMagnitude .towardZero negative mantissa exponent
    max low (min high (if negative then -magnitude else magnitude))
  | .infinite negative => if negative then low else high
  | .notANumber => 0

/-- Whether a number is a finite integer. -/
def isInteger : Reading → Bool
  | .finite _ mantissa exponent =>
    mantissa * 2 ^ exponent.toNat % 2 ^ (-exponent).toNat == 0
  | _ => false

end Reading
end Monochrome
