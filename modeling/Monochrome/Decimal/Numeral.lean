import Monochrome.Binary

/-!
# Decimal numerals

A numeral is a coefficient with a power of ten.  `Numeral.nearest` reads it as the closest
binary number, and `Numeral.shortest` gives the numeral of a binary number that has the fewest
digits among those that read back, and is the closest of them.
-/

namespace Monochrome

/-- The number `coefficient * 10 ^ exponent`, up to sign. -/
structure Numeral where
  negative : Bool
  coefficient : Nat
  exponent : Int
deriving DecidableEq, Repr

namespace Numeral

/-- The digits of a natural number, most significant first. -/
def digits (number : Nat) : List Char :=
  Nat.toDigits 10 number

/-- The natural number that digits spell. -/
def ofDigits (text : List Char) : Nat :=
  text.foldl (fun number digit => 10 * number + (digit.toNat - 48)) 0

/-- The pattern of the binary number nearest to a numeral.  A numeral far outside the range
of every format is told by its order of magnitude alone. -/
def nearest (format : Format) (numeral : Numeral) : Nat :=
  let order := numeral.exponent + (digits numeral.coefficient).length
  let magnitude :=
    if numeral.coefficient = 0 || order < -400 then 0
    else if 400 < order then format.infinity
    else
      format.nearest (numeral.coefficient * 10 ^ numeral.exponent.toNat)
        (10 ^ (-numeral.exponent).toNat)
  format.withSign numeral.negative magnitude

/-- A positive quotient together with the ends of an interval around it, all over one
denominator. -/
structure Target where
  value : Nat
  low : Nat
  high : Nat
  denominator : Nat
  /-- Whether the ends belong to the interval. -/
  closed : Bool

/-- The interval of the numbers that round to `mantissa * 2 ^ exponent`.  Below a power of two
the neighbour is nearer by half, unless the numbers are the smallest of the format. -/
def target (format : Format) (mantissa : Nat) (exponent : Int) : Target :=
  let scale := 2 ^ exponent.toNat
  let narrowBelow := mantissa = 2 ^ format.fractionBits && format.minExponent < exponent
  { value := 4 * mantissa * scale
    low := (if narrowBelow then 4 * mantissa - 1 else 4 * mantissa - 2) * scale
    high := (4 * mantissa + 2) * scale
    denominator := 4 * 2 ^ (-exponent).toNat
    closed := mantissa % 2 = 0 }

/-- The number of places before the decimal point: the least `k` with a value below `10 ^ k`. -/
def places (numerator denominator : Nat) : Int :=
  if denominator ≤ numerator then
    (digits (numerator / denominator)).length
  else
    let length := (digits (denominator / numerator)).length
    if numerator * 10 ^ (length - 1) = denominator then 2 - (length : Int) else 1 - (length : Int)

/-- Whether `coefficient * 10 ^ exponent` lies in the interval. -/
def Target.contains (target : Target) (coefficient : Nat) (exponent : Int) : Bool :=
  let point := coefficient * 10 ^ exponent.toNat * target.denominator
  let scale := 10 ^ (-exponent).toNat
  if target.closed then
    target.low * scale ≤ point && point ≤ target.high * scale
  else
    target.low * scale < point && point < target.high * scale

/-- The two neighbours of the value on the grid of the multiples of `10 ^ exponent`; the first
of them that lies in the interval and is not the farther one. -/
def Target.onGrid? (target : Target) (exponent : Int) : Option Nat :=
  let unit := 10 ^ exponent.toNat * target.denominator
  let scaled := target.value * 10 ^ (-exponent).toNat
  let below := scaled / unit
  let lower := target.contains below exponent
  let upper := target.contains (below + 1) exponent
  if lower && (!upper || 2 * (scaled % unit) < unit) then some below
  else if upper then some (below + 1)
  else none

/-- A coefficient without trailing zeros, the exponent raised accordingly. -/
def strip : Nat → Nat → Int → Nat × Int
  | 0, coefficient, exponent => (coefficient, exponent)
  | fuel + 1, coefficient, exponent =>
    if coefficient % 10 = 0 then strip fuel (coefficient / 10) (exponent + 1)
    else (coefficient, exponent)

/-- The coefficient and exponent with the fewest digits, trying one digit after another;
seventeen are always enough. -/
def fewestDigits (target : Target) (places : Int) : Nat → Nat → Nat × Int
  | 0, count => (target.value / target.denominator, count)
  | fuel + 1, count =>
    match target.onGrid? (places - count) with
    | some coefficient => strip 20 coefficient (places - count)
    | none => fewestDigits target places fuel (count + 1)

/-- The shortest numeral that reads back as `mantissa * 2 ^ exponent`. -/
def shortest (format : Format) (negative : Bool) (mantissa : Nat) (exponent : Int) : Numeral :=
  if mantissa = 0 then ⟨negative, 0, 0⟩
  else
    let target := target format mantissa exponent
    let (coefficient, exponent) :=
      fewestDigits target (places target.value target.denominator) 20 1
    ⟨negative, coefficient, exponent⟩

/-- The magnitude of a numeral written without exponent, and without a point if it is an
integer. -/
def positional (coefficient : Nat) (exponent : Int) : List Char :=
  let text := digits coefficient
  if coefficient = 0 then ['0']
  else if 0 ≤ exponent then text ++ List.replicate exponent.toNat '0'
  else
    let point := text.length + exponent
    if 0 < point then text.take point.toNat ++ '.' :: text.drop point.toNat
    else '0' :: '.' :: List.replicate (-point).toNat '0' ++ text

/-- A binary number written without exponent in the fewest digits that read back. -/
def write (format : Format) : Reading → List Char
  | .finite negative mantissa exponent =>
    let numeral := shortest format negative mantissa exponent
    let text := positional numeral.coefficient numeral.exponent
    if negative then '-' :: text else text
  | .infinite negative => if negative then ['-', 'i', 'n', 'f'] else ['i', 'n', 'f']
  | .notANumber => ['N', 'a', 'N']

end Numeral
end Monochrome
