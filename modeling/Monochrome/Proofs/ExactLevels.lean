import Mathlib.Algebra.Order.Floor.Ring
import Mathlib.Data.Rat.Floor
import Mathlib.Tactic.Linarith
import Mathlib.Tactic.NormNum
import Mathlib.Tactic.Ring
import Monochrome.Conversion.Stream
import Monochrome.Proofs.ColorSpace.Palettes

/-!
# Gray levels in exact arithmetic

The formulas hold for every scalar.  In exact arithmetic the luminance of a neutral color is its
level, since the weights of the channels add up to one, and rounding to six decimals changes nothing
that is rounded already.  Values are moved into the unit interval, and stay there when they are weighed.
-/

namespace Monochrome

namespace Exact

/-- The integer to which a number rounds; a half goes away from zero. -/
def round (rounding : IntegerRounding) (value : ℚ) : ℤ :=
  match rounding with
  | .towardZero => if value < 0 then ⌈value⌉ else ⌊value⌋
  | .down => ⌊value⌋
  | .up => ⌈value⌉
  | .nearest => if value < 0 then ⌈value - 1 / 2⌉ else ⌊value + 1 / 2⌋

/-- An integer rounds to itself. -/
theorem round_intCast (rounding : IntegerRounding) (number : ℤ) :
    round rounding (number : ℚ) = number := by
  have below : ⌈(number : ℚ) - 1 / 2⌉ = number := by
    rw [Int.ceil_eq_iff]
    constructor <;> linarith
  have above : ⌊(number : ℚ) + 1 / 2⌋ = number := by
    rw [Int.floor_eq_iff]
    constructor <;> linarith
  cases rounding <;> simp only [round, below, above, Int.floor_intCast, Int.ceil_intCast, ite_self]

end Exact

/-- Exact arithmetic. -/
instance : Scalar ℚ where
  less first second := decide (first < second)
  atMost first second := decide (first ≤ second)
  same first second := decide (first = second)
  magnitude := abs
  round rounding value := Exact.round rounding value
  isInteger value := value.isInt
  ofInt number := number
  toIntWithin low high value := max low (min high (Exact.round .towardZero value))

/-- A level rounded to six decimals. -/
def sixDecimals {α : Type} [Scalar α] (level : α) : α :=
  Scalar.round .nearest (level * 1000000.0) / 1000000.0

/-- A gray level is written as it is rounded to six decimals, and zero without a sign. -/
theorem Conversion.grayOperand_eq (level : Float) :
    grayOperand level = if Scalar.same (sixDecimals level) 0.0 then .real 0.0
      else .real (Precision.narrow (sixDecimals level)) :=
  rfl

/-- In exact arithmetic the luminance of a neutral color is its level. -/
theorem luminance_neutral (level : ℚ) : luminance level level level = level := by
  show (0.3 : ℚ) * level + 0.59 * level + 0.11 * level = level
  ring

/-- In exact arithmetic a rounded level is an integer number of millionths. -/
theorem sixDecimals_eq (level : ℚ) :
    sixDecimals level = (Exact.round .nearest (level * 1000000.0) : ℚ) / 1000000.0 :=
  rfl

/-- In exact arithmetic a level that is rounded stays as it is when it is rounded again. -/
theorem sixDecimals_sixDecimals (level : ℚ) : sixDecimals (sixDecimals level) = sixDecimals level := by
  have millionths : sixDecimals level * 1000000.0 =
      (Exact.round .nearest (level * 1000000.0) : ℚ) := by
    rw [sixDecimals_eq]
    exact div_mul_cancel₀ _ (by norm_num)
  rw [sixDecimals_eq, millionths, Exact.round_intCast, sixDecimals_eq]

/-- In exact arithmetic the gray level of the neutral color of a written level is that level. -/
theorem sixDecimals_luminance (level : ℚ) :
    sixDecimals (luminance (sixDecimals level) (sixDecimals level) (sixDecimals level)) =
      sixDecimals level := by
  rw [luminance_neutral, sixDecimals_sixDecimals]

/-! ## The unit interval -/

namespace Exact

/-- Moving a number into an interval. -/
theorem clip_eq {low high : ℚ} (inOrder : low ≤ high) (value : ℚ) :
    Scalar.clip low high value = max low (min high value) := by
  show (if decide (value < low) = true then low
    else if decide (high < value) = true then high else value) = _
  simp only [decide_eq_true_eq]
  split_ifs with below above
  · rw [min_eq_right (by linarith), max_eq_left (le_of_lt below)]
  · rw [min_eq_left (le_of_lt above), max_eq_right inOrder]
  · rw [min_eq_right (not_lt.1 above), max_eq_right (not_lt.1 below)]

/-- Moving a number into the unit interval. -/
theorem clip_unit (value : ℚ) : Scalar.clip (0.0 : ℚ) 1.0 value = max 0 (min 1 value) := by
  have zero : (0.0 : ℚ) = 0 := by norm_num
  have one : (1.0 : ℚ) = 1 := by norm_num
  rw [zero, one, clip_eq zero_le_one]

/-- A number that was moved into the unit interval is in it. -/
theorem clip_mem (value : ℚ) : Scalar.clip (0.0 : ℚ) 1.0 value ∈ Set.Icc 0 1 := by
  rw [clip_unit]
  exact ⟨le_max_left _ _, max_le zero_le_one (min_le_left _ _)⟩

/-- A number in the unit interval stays where it is. -/
theorem clip_of_mem {value : ℚ} (within : value ∈ Set.Icc (0 : ℚ) 1) :
    Scalar.clip (0.0 : ℚ) 1.0 value = value := by
  rw [clip_unit, min_eq_right within.2, max_eq_right within.1]

/-- The lesser of a number and one. -/
theorem upTo_one (value : ℚ) : Scalar.upTo (1.0 : ℚ) value = min 1 value := by
  have one : (1.0 : ℚ) = 1 := by norm_num
  show (if decide (value ≤ 1.0) = true then value else (1.0 : ℚ)) = _
  rw [one]
  simp only [decide_eq_true_eq]
  split_ifs with below
  · exact (min_eq_right below).symm
  · exact (min_eq_left (le_of_not_ge below)).symm

/-- The luminance as a weighted sum. -/
theorem luminance_eq (red green blue : ℚ) :
    luminance red green blue = 3 / 10 * red + 59 / 100 * green + 11 / 100 * blue := by
  show (0.3 : ℚ) * red + 0.59 * green + 0.11 * blue = _
  norm_num

/-- The luminance of three numbers in the unit interval is in it. -/
theorem luminance_mem {red green blue : ℚ} (isRed : red ∈ Set.Icc (0 : ℚ) 1)
    (isGreen : green ∈ Set.Icc (0 : ℚ) 1) (isBlue : blue ∈ Set.Icc (0 : ℚ) 1) :
    luminance red green blue ∈ Set.Icc (0 : ℚ) 1 := by
  obtain ⟨notRed, atMostRed⟩ := isRed
  obtain ⟨notGreen, atMostGreen⟩ := isGreen
  obtain ⟨notBlue, atMostBlue⟩ := isBlue
  rw [luminance_eq]
  constructor <;> linarith

end Exact

/-! ## Palettes -/

/-- Exact arithmetic is as precise as it gets. -/
instance : Precision ℚ ℚ where
  widen := id
  narrow := id

/-- In exact arithmetic the byte of a level that a byte tells is that byte. -/
theorem levelByte_byte (byte : UInt8) : Scalar.levelByte ((byte.toNat : ℚ) / 255.0) = byte := by
  have bound : (byte.toNat : ℚ) ≤ 255 := by exact_mod_cast Nat.le_of_lt_succ byte.toNat_lt
  have isLevel : ¬(byte.toNat : ℚ) / 255.0 < 0.0 ∧ ¬(1.0 : ℚ) < (byte.toNat : ℚ) / 255.0 := by
    rw [not_lt, not_lt, le_div_iff₀ (by norm_num), div_le_iff₀ (by norm_num)]
    constructor
    · norm_num
    · linarith
  have clipped : Scalar.clip (0.0 : ℚ) 1.0 ((byte.toNat : ℚ) / 255.0) =
      (byte.toNat : ℚ) / 255.0 :=
    (if_neg (mt of_decide_eq_true isLevel.1)).trans (if_neg (mt of_decide_eq_true isLevel.2))
  have whole : (byte.toNat : ℚ) / 255.0 * 255.0 = ((byte.toNat : ℤ) : ℚ) := by
    rw [div_mul_cancel₀ _ (by norm_num)]
    rfl
  rw [Scalar.levelByte, clipped, whole]
  show (max 0 (min 255 (Exact.round .towardZero
    (Exact.round .nearest ((byte.toNat : ℤ) : ℚ) : ℚ)))).toNat.toUInt8 = byte
  rw [Exact.round_intCast, Exact.round_intCast]
  have within : max 0 (min 255 (byte.toNat : ℤ)) = byte.toNat := by
    have := byte.toNat_lt
    omega
  rw [within, Int.toNat_natCast]
  exact UInt8.ofNat_toNat

/-- In exact arithmetic a palette of gray stays as it is when it is made gray again. -/
theorem ColorSpace.grayPalette_gray [Analysis ℚ] {last : Nat} {palette : Bytes}
    (isWhole : palette.length = last + 1) :
    grayPalette (.deviceGray : ColorSpace ℚ ℚ) last palette = .ok palette := by
  have entry (index : Nat) (within : index < palette.length) :
      (do
        let values ← paletteEntry (.deviceGray : ColorSpace ℚ ℚ) palette index
        let gray ← (.deviceGray : ColorSpace ℚ ℚ).grayOfComponents values
        return Scalar.levelByte gray : Outcome UInt8) = .ok palette[index] := by
    have level : byteWithin palette[index] ((0.0 : ℚ), (1.0 : ℚ)) =
        (palette[index].toNat : ℚ) / 255.0 := by
      show (0.0 : ℚ) + ((palette[index].toNat : ℤ) : ℚ) / 255.0 * (1.0 - 0.0) = _
      norm_num
    rw [paletteEntry_deviceGray within, level]
    have gray : (Rgb.neutral ((palette[index].toNat : ℚ) / 255.0)).gray =
        (palette[index].toNat : ℚ) / 255.0 := luminance_neutral _
    show Except.ok (Scalar.levelByte (Rgb.neutral ((palette[index].toNat : ℚ) / 255.0)).gray) = _
    rw [gray, levelByte_byte]
  rw [grayPalette, Outcome.mapM_eq_ok, List.forall₂_iff_get]
  refine ⟨by simp [isWhole], fun index inRange inPalette => ?_⟩
  simpa using entry index inPalette

end Monochrome
