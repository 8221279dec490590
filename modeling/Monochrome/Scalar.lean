import Monochrome.Binary

/-!
# Scalars

Colors, functions and image samples are computed in single precision, luminance and
calculator programs in double precision.  The formulas are stated once for every `Scalar`,
so that they can be read in any arithmetic: the two precisions are the instances that run,
and a law about a formula can be stated in exact arithmetic.  `Precision` relates a scalar to
its wider partner.
-/

namespace Monochrome

/-- An arithmetic with an order, rounding to integers, and exchange with integers. -/
class Scalar (α : Type) extends Add α, Sub α, Mul α, Div α, Neg α, OfScientific α where
  /-- The first value is less than the second. -/
  less : α → α → Bool
  /-- The first value is at most the second. -/
  atMost : α → α → Bool
  /-- The values are equal; zero equals its negative. -/
  same : α → α → Bool
  /-- The value without its sign. -/
  magnitude : α → α
  /-- The integer to which a value rounds. -/
  round : IntegerRounding → α → α
  /-- Whether a value is an integer. -/
  isInteger : α → Bool
  /-- The value nearest to an integer. -/
  ofInt : Int → α
  /-- The integer part of a value, within bounds. -/
  toIntWithin : Int → Int → α → Int

/-- The functions of analysis that the formulas use. -/
class Analysis (α : Type) where
  squareRoot : α → α
  power : α → α → α
  naturalLog : α → α
  decimalLog : α → α
  /-- The sine of an angle in radians. -/
  sine : α → α
  /-- The cosine of an angle in radians. -/
  cosine : α → α
  /-- The angle in radians of the point with the given ordinate and abscissa. -/
  angle : α → α → α
  /-- Half a turn in radians. -/
  halfTurn : α

/-- A scalar type and a wider one that holds all its values. -/
class Precision (Single : Type) (Double : outParam Type) where
  widen : Single → Double
  narrow : Double → Single

namespace Scalar

variable {α : Type} [Scalar α]

/-- The value moved into an interval. -/
def clip (low high value : α) : α :=
  if less value low then low else if less high value then high else value

/-- The lesser of a value and a limit. -/
def upTo (limit value : α) : α :=
  if atMost value limit then value else limit

/-- The greater of a value and a limit. -/
def downTo (limit value : α) : α :=
  if atMost limit value then value else limit

/-- The value as a 64-bit integer. -/
def toInt64 (value : α) : Int64 :=
  Int64.ofInt (toIntWithin (-(2 ^ 63)) (2 ^ 63 - 1) value)

/-- The value as a natural number below `2 ^ 64`. -/
def toNat (value : α) : Nat :=
  (toIntWithin 0 (2 ^ 64 - 1) value).toNat

/-- The value as a byte. -/
def toByte (value : α) : UInt8 :=
  (toIntWithin 0 255 value).toNat.toUInt8

/-- The value of a natural number. -/
def ofNat (number : Nat) : α :=
  ofInt number

/-- The byte of a level between zero and one. -/
def levelByte (level : α) : UInt8 :=
  toByte (round .nearest (clip (0.0 : α) 1.0 level * 255.0))

end Scalar

namespace Float32Scalar

/-- The number that a value of single precision is. -/
def read (value : Float32) : Reading :=
  Format.single.read value.toBits.toNat

/-- The value of single precision with the given pattern. -/
def ofPattern (bits : Nat) : Float32 :=
  Float32.ofBits (UInt32.ofNat bits)

end Float32Scalar

namespace FloatScalar

/-- The number that a value of double precision is. -/
def read (value : Float) : Reading :=
  Format.double.read value.toBits.toNat

/-- The value of double precision with the given pattern. -/
def ofPattern (bits : Nat) : Float :=
  Float.ofBits (UInt64.ofNat bits)

end FloatScalar

instance : Scalar Float32 where
  less := Float32.lt
  atMost := Float32.le
  same := Float32.beq
  magnitude := Float32.abs
  round rounding value :=
    Float32Scalar.ofPattern (Format.single.write ((Float32Scalar.read value).round rounding))
  isInteger value := (Float32Scalar.read value).isInteger
  ofInt number := Float32Scalar.ofPattern (Format.single.ofInt number)
  toIntWithin low high value := (Float32Scalar.read value).toIntWithin low high

instance : Scalar Float where
  less := Float.lt
  atMost := Float.le
  same := Float.beq
  magnitude := Float.abs
  round rounding value :=
    FloatScalar.ofPattern (Format.double.write ((FloatScalar.read value).round rounding))
  isInteger value := (FloatScalar.read value).isInteger
  ofInt number := FloatScalar.ofPattern (Format.double.ofInt number)
  toIntWithin low high value := (FloatScalar.read value).toIntWithin low high

instance : Analysis Float32 where
  squareRoot := Float32.sqrt
  power := Float32.pow
  naturalLog := Float32.log
  decimalLog := Float32.log10
  sine := Float32.sin
  cosine := Float32.cos
  angle := Float32.atan2
  halfTurn := 3.14159265358979

instance : Analysis Float where
  squareRoot := Float.sqrt
  power := Float.pow
  naturalLog := Float.log
  decimalLog := Float.log10
  sine := Float.sin
  cosine := Float.cos
  angle := Float.atan2
  halfTurn := 3.141592653589793

instance : Precision Float32 Float where
  widen value := FloatScalar.ofPattern (Format.double.write (Float32Scalar.read value))
  narrow value := Float32Scalar.ofPattern (Format.single.write (FloatScalar.read value))

end Monochrome
