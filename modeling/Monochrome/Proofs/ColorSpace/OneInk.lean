import Mathlib.Algebra.Order.Round
import Monochrome.Proofs.ColorSpace.ThreeComponents
import Monochrome.Proofs.NumericFunction.Interpolation

/-!
# Gray partners of one ink

The partner of one ink has the same ink, with a function through the gray levels that the space shows at
256 tints.  In exact arithmetic a level is stored as the nearest of the levels that a byte tells; at these
tints the partner shows the stored levels, between two of them what is on the straight line between them,
and beyond the first and the last one the level of that.
-/

namespace Monochrome

open Limited Outcome

/-! ## Stored levels -/

/-- The level that is nearest to one, among those that a byte tells. -/
def nearestLevel (level : ℚ) : ℚ :=
  round (255 * max 0 (min 1 level)) / 255

/-- In exact arithmetic the byte of a level tells the nearest level. -/
theorem toNat_levelByte (level : ℚ) :
    ((Scalar.levelByte level).toNat : ℚ) = round (255 * max 0 (min 1 level)) := by
  obtain ⟨moved, isMoved⟩ : ∃ moved, moved = max 0 (min 1 level) := ⟨_, rfl⟩
  have notBelow : 0 ≤ moved := isMoved ▸ le_max_left _ _
  have notAbove : moved ≤ 1 := isMoved ▸ max_le zero_le_one (min_le_left _ _)
  have full : (255.0 : ℚ) = 255 := by norm_num
  have rounded : Exact.round .nearest (moved * 255) = round (255 * moved) := by
    rw [Exact.round, if_neg (by linarith), round_eq, mul_comm]
  have lower : 0 ≤ round (255 * moved) := by
    rw [round_eq, Int.floor_nonneg]
    linarith
  have upper : round (255 * moved) ≤ 255 := by
    rw [round_eq, ← Int.lt_add_one_iff, Int.floor_lt]
    push_cast
    linarith
  have isByte : Scalar.levelByte level = (round (255 * moved)).toNat.toUInt8 := by
    rw [Scalar.levelByte, Exact.clip_unit, ← isMoved, full]
    show (max 0 (min 255 (Exact.round .towardZero
      (Exact.round .nearest (moved * 255) : ℚ)))).toNat.toUInt8 = _
    rw [Exact.round_intCast, rounded, min_eq_right upper, max_eq_right lower]
  rw [← isMoved, isByte, UInt8.toNat_ofNat', Nat.mod_eq_of_lt (by omega), ← Int.cast_natCast,
    Int.toNat_of_nonneg lower]

/-! ## Functions through samples -/

/-- Between two neighbouring points the interpolated value is on the straight line between the values
there. -/
theorem multilinear_between {step : Nat} {position : ℚ} (after : step ≤ position)
    (before : position ≤ step + 1) (values : List Nat → ℚ) :
    multilinear [position] values =
      values [step] + (position - step) * (values [step + 1] - values [step]) := by
  rcases eq_or_lt_of_le before with rfl | before
  · have atNext := multilinear_natCast [step + 1] values
    rw [List.map_singleton, Nat.cast_succ] at atNext
    rw [atNext]
    ring
  · rcases eq_or_lt_of_le after with rfl | after
    · have atStep := multilinear_natCast [step] values
      rw [List.map_singleton] at atStep
      rw [atStep]
      ring
    · have isFloor : ⌊position⌋ = step :=
        Int.floor_eq_iff.2 ⟨by exact_mod_cast after.le, by exact_mod_cast before⟩
      have isCeil : ⌈position⌉₊ = step + 1 :=
        (Nat.ceil_eq_iff (Nat.succ_ne_zero _)).2 ⟨by simpa using after, by push_cast; exact before.le⟩
      have isFract : Int.fract position = position - step := by rw [Int.fract, isFloor, Int.cast_natCast]
      have isFloorNat : ⌊position⌋₊ = step := by rw [← Int.floor_toNat, isFloor, Int.toNat_natCast]
      rw [multilinear, isFract, isFloorNat, isCeil]
      show (1 - (position - step)) * values [step] + (position - step) * values [step + 1] = _
      ring

namespace SampleTable

/-- Samples of a byte for one output, at points at equal distances. -/
def ofBytes (samples : Bytes) : SampleTable ℚ :=
  ⟨[samples.length], 8, [0.0, Scalar.ofNat (samples.length - 1)], [0.0, 1.0], samples⟩

variable {samples : Bytes}

@[simp] theorem outputCount_ofBytes : (ofBytes samples).outputCount = 1 := by
  simp [outputCount, ofBytes]

/-- A table of bytes has a sample at every point. -/
theorem isFull_ofBytes (several : 1 ≤ samples.length) (isWord : samples.length ≤ 2 ^ 64) :
    (ofBytes samples).IsFull 1 where
  enoughSizes := Nat.le_refl 1
  enoughIntervals := Nat.le_refl 2
  positive := by simpa [ofBytes] using several
  areWords := by simpa [ofBytes] using isWord
  fewBits := show 8 ≤ 32 by decide
  enoughSamples := by simp [ofBytes, outputCount, Nat.mul_comm]

/-- The sample at a point is the number of its byte. -/
theorem storedAt_ofBytes {index : Nat} {byte : UInt8} (isByte : samples[index]? = some byte) :
    (ofBytes samples).storedAt 0 [index] = byte.toNat := by
  have bits : (((Bits.ofBytesHigh samples).drop (8 * index)).take 8) = Bits.highFirst 8 byte.toNat := by
    rw [SampleImage.drop_ofBytesHigh_of_byte isByte, List.take_left' (Bits.length_highFirst _ _)]
  have place : gridNumber (ofBytes samples).size [index] * (ofBytes samples).outputCount + 0 = index := by
    simp [gridNumber, ofBytes, outputCount]
  rw [storedAt, place, sampleNumber]
  show ((Bits.valueHigh (((Bits.ofBytesHigh samples).drop (index * 8)).take 8) : Nat) : ℚ) = _
  rw [Nat.mul_comm, bits, SampleImage.valueHigh_highFirst, Nat.mod_eq_of_lt byte.toNat_lt]

/-- An input in the unit interval is mapped onto the points along a straight line. -/
theorem encodedPoint_ofBytes {input : ℚ} (within : input ∈ Set.Icc (0 : ℚ) 1) :
    (ofBytes samples).encodedPoint [(0.0, 1.0)] [input] = [((samples.length - 1 : Nat) : ℚ) * input] := by
  obtain ⟨last, isLast⟩ : ∃ last : ℚ, last = ((samples.length - 1 : Nat) : ℚ) := ⟨_, rfl⟩
  have notBelow : 0 ≤ last := isLast ▸ Nat.cast_nonneg _
  have wide : ¬|(1 : ℚ) - 0| < Scalar.epsilon := by
    show ¬|(1 : ℚ) - 0| < 1.1920928955078125e-7
    norm_num
  have zero : (0.0 : ℚ) = 0 := by norm_num
  have one : (1.0 : ℚ) = 1 := by norm_num
  show [Scalar.clip 0.0 (Scalar.ofNat (samples.length - 1))
    (Scalar.interpolate input 0.0 1.0 0.0 (Scalar.ofNat (samples.length - 1)))] = _
  rw [clip_grid, interpolate_eq, zero, one, if_neg wide]
  show [max 0 (min ((samples.length - 1 : Nat) : ℚ)
    (0 + (input - 0) * (((samples.length - 1 : Nat) : ℚ) - 0) / (1 - 0)))] = _
  rw [← isLast, show 0 + (input - 0) * (last - 0) / (1 - 0) = last * input by ring,
    min_eq_right (mul_le_of_le_one_right notBelow within.2), max_eq_right (mul_nonneg notBelow within.1)]

/-- The weighted sum at an input in the unit interval interpolates the samples. -/
theorem weightedSums_ofBytes (several : 1 ≤ samples.length) (isWord : samples.length ≤ 2 ^ 64) {input : ℚ}
    (within : input ∈ Set.Icc (0 : ℚ) 1) :
    (ofBytes samples).weightedSums [(0.0, 1.0)] [input] =
      .ok [multilinear [((samples.length - 1 : Nat) : ℚ) * input] ((ofBytes samples).storedAt 0)] := by
  have isFull := isFull_ofBytes several isWord
  have inDomain : [input].length ≤ [((0.0 : ℚ), (1.0 : ℚ))].length := Nat.le_refl 1
  have start : List.replicate (ofBytes samples).outputCount (0.0 : ℚ) =
      (List.range (ofBytes samples).outputCount).map fun _ => 0 := by
    norm_num [List.range_succ]
  have enough : ((ofBytes samples).size.length < [input].length ||
      (ofBytes samples).encode.length < 2 * [input].length) = false := rfl
  rw [weightedSums, enough, if_neg Bool.false_ne_true, start,
    foldlM_addCorner (IsFull.haveSamples isFull inDomain)]
  simp only [IsFull.sum_weighedSample isFull inDomain, encodedPoint_ofBytes within, zero_add,
    outputCount_ofBytes, List.range_one, List.map_singleton]

/-- The output at an input in the unit interval is the interpolated sample, as a part of the greatest
one. -/
theorem evaluate_ofBytes (several : 1 ≤ samples.length) (isWord : samples.length ≤ 2 ^ 64) {input : ℚ}
    (within : input ∈ Set.Icc (0 : ℚ) 1) :
    (ofBytes samples).evaluate [(0.0, 1.0)] [input] =
      .ok [multilinear [((samples.length - 1 : Nat) : ℚ) * input] ((ofBytes samples).storedAt 0) / 255] := by
  have wide : ¬|(255 : ℚ) - 0| < Scalar.epsilon := by
    show ¬|(255 : ℚ) - 0| < 1.1920928955078125e-7
    norm_num
  have zero : (0.0 : ℚ) = 0 := by norm_num
  have one : (1.0 : ℚ) = 1 := by norm_num
  rw [evaluate, weightedSums_ofBytes several isWord within, ok_bind]
  show Except.ok [Scalar.interpolate _ 0.0 255 0.0 1.0] = _
  rw [interpolate_eq, zero, one, if_neg wide]
  congr 2
  ring

/-- The sample at a point is at most the greatest number of a byte. -/
theorem storedAt_ofBytes_le (point : List Nat) : (ofBytes samples).storedAt 0 point ≤ 255 := by
  have short := Bits.valueHigh_lt (((Bits.ofBytesHigh samples).drop
    ((gridNumber (ofBytes samples).size point * (ofBytes samples).outputCount + 0) * 8)).take 8)
  have atMost := short.trans_le (Nat.pow_le_pow_right two_pos (List.length_take_le _ _))
  show ((_ : Nat) : ℚ) ≤ 255
  exact_mod_cast Nat.le_of_lt_succ atMost

/-- What is interpolated between samples is between zero and the greatest number of a byte. -/
theorem multilinear_ofBytes_mem (positions : List ℚ) :
    multilinear positions ((ofBytes samples).storedAt 0) / 255 ∈ Set.Icc (0 : ℚ) 1 := by
  have notBelow : 0 ≤ multilinear positions ((ofBytes samples).storedAt 0) :=
    le_multilinear fun _ _ => Nat.cast_nonneg _
  have notAbove : -255 ≤ multilinear positions fun point => -(ofBytes samples).storedAt 0 point :=
    le_multilinear fun point _ => neg_le_neg (storedAt_ofBytes_le point)
  rw [multilinear_neg] at notAbove
  constructor <;> linarith

end SampleTable

namespace NumericFunction

variable [Analysis ℚ] {values : List ℚ}

omit [Analysis ℚ] in
/-- A function through samples has a table of the bytes that their levels tell. -/
theorem throughSamples_eq (several : 1 ≤ values.length) :
    (throughSamples values 1 : NumericFunction ℚ ℚ) =
      sampled ⟨unitIntervals 1, some (unitIntervals 1)⟩ (.ofBytes (values.map Scalar.levelByte)) := by
  have points : max (values.length / max 1 1) 1 = values.length := by simpa using several
  simp only [throughSamples, points, SampleTable.ofBytes, List.length_map]
  rfl

/-- A function through samples interpolates them, at an input that is moved into the unit interval. -/
theorem apply_throughSamples (several : 1 ≤ values.length) (isWord : values.length ≤ 2 ^ 64)
    (input : ℚ) :
    (throughSamples values 1 : NumericFunction ℚ ℚ).apply [input] =
      .ok [multilinear [((values.length - 1 : Nat) : ℚ) * Scalar.clip 0.0 1.0 input]
        ((SampleTable.ofBytes (values.map Scalar.levelByte)).storedAt 0) / 255] := by
  have areSeveral : 1 ≤ (values.map Scalar.levelByte).length := by simpa using several
  have evaluated :=
    SampleTable.evaluate_ofBytes areSeveral (by simpa using isWord) (Exact.clip_mem input)
  rw [List.length_map] at evaluated
  have clipped : clipInputs (unitIntervals 1) [input] = .ok [Scalar.clip 0.0 1.0 input] := rfl
  rw [throughSamples_eq several, apply, clipped, ok_bind]
  show ((SampleTable.ofBytes _).evaluate [(0.0, 1.0)] _ >>= _) = _
  rw [evaluated, ok_bind]
  exact congrArg (fun level => Except.ok [level])
    (Exact.clip_of_mem (SampleTable.multilinear_ofBytes_mem _))

/-- An input beyond the unit interval has the output of its nearest end. -/
theorem apply_throughSamples_clip (several : 1 ≤ values.length) (isWord : values.length ≤ 2 ^ 64)
    (input : ℚ) :
    (throughSamples values 1 : NumericFunction ℚ ℚ).apply [input] =
      (throughSamples values 1).apply [max 0 (min 1 input)] := by
  rw [← Exact.clip_unit, apply_throughSamples several isWord, apply_throughSamples several isWord,
    Exact.clip_of_mem (Exact.clip_mem input)]

section Steps

variable {count step : Nat} (isCount : values.length = count + 1) (isWord : values.length ≤ 2 ^ 64)
include isCount isWord

/-- Between two neighbouring samples a function through samples is on the straight line between the levels
as which they are stored. -/
theorem apply_throughSamples_between (inside : step < count) {input : ℚ} (after : (step : ℚ) / count ≤ input)
    (before : input ≤ (step + 1) / count) :
    (throughSamples values 1 : NumericFunction ℚ ℚ).apply [input] =
      .ok [nearestLevel (values.getD step 0) + (count * input - step) *
        (nearestLevel (values.getD (step + 1) 0) - nearestLevel (values.getD step 0))] := by
  have positive : (0 : ℚ) < count := by exact_mod_cast Nat.zero_lt_of_lt inside
  have isStep : (step : ℚ) + 1 ≤ count := by exact_mod_cast inside
  have within : input ∈ Set.Icc (0 : ℚ) 1 := by
    refine ⟨le_trans (by positivity) after, before.trans ?_⟩
    rwa [div_le_one positive]
  have stored (index : Nat) (isIndex : index ≤ count) :
      (SampleTable.ofBytes (values.map Scalar.levelByte)).storedAt 0 [index] / 255 =
        nearestLevel (values.getD index 0) := by
    have isByte : (values.map Scalar.levelByte)[index]? =
        some (Scalar.levelByte (values.getD index 0)) := by
      rw [List.getElem?_map, List.getD_eq_getElem?_getD, List.getElem?_eq_getElem (by omega)]
      rfl
    rw [SampleTable.storedAt_ofBytes isByte, toNat_levelByte]
    rfl
  have last : ((values.length - 1 : Nat) : ℚ) = count := by rw [isCount, Nat.add_sub_cancel]
  rw [div_le_iff₀' positive] at after
  rw [le_div_iff₀' positive] at before
  rw [apply_throughSamples (by omega) isWord, Exact.clip_of_mem within, last,
    multilinear_between after before, ← stored step inside.le, ← stored (step + 1) inside]
  congr 2
  ring

/-- At the point of a sample a function through samples has the level as which it is stored. -/
theorem apply_throughSamples_step (several : 0 < count) (inside : step ≤ count) :
    (throughSamples values 1 : NumericFunction ℚ ℚ).apply [(step : ℚ) / count] =
      .ok [nearestLevel (values.getD step 0)] := by
  have positive : (0 : ℚ) < count := by exact_mod_cast several
  cases step with
  | zero =>
      rw [apply_throughSamples_between isCount isWord several le_rfl (by gcongr; linarith)]
      congr 2
      field_simp
      ring
  | succ step =>
      have isNext : ((step + 1 : Nat) : ℚ) = step + 1 := Nat.cast_succ step
      rw [isNext, apply_throughSamples_between isCount isWord inside (by gcongr; linarith) le_rfl]
      congr 2
      field_simp
      ring

end Steps

end NumericFunction

/-! ## One ink -/

namespace ColorSpace

section Structure

variable {Single Double : Type}

/-- Whether a space has one ink. -/
def isOneInk : ColorSpace Single Double → Bool
  | separation _ _ _ => true
  | deviceN [_] _ _ _ => true
  | _ => false

variable [Scalar Single] [Analysis Single] [Scalar Double] [Analysis Double]
  [Precision Single Double] {space gray : ColorSpace Single Double}

/-- The partner of one ink shows its gray tints. -/
theorem exists_grayTint_of_toGray (isInk : space.isOneInk = true) (converted : space.toGray = .ok gray) :
    ∃ tint, space.grayTint = .ok tint ∧
      ∀ value, gray.toRgb [value] = alternateColor deviceGray tint [value] >>= toRgb deviceGray := by
  unfold isOneInk at isInk
  split at isInk
  · obtain ⟨tint, isTint, same⟩ := bind_eq_ok.1 converted
    obtain rfl := pure_eq_ok.1 same
    exact ⟨tint, isTint, fun _ => rfl⟩
  · obtain ⟨tint, isTint, same⟩ := bind_eq_ok.1 converted
    obtain rfl := pure_eq_ok.1 same
    exact ⟨tint, isTint, fun _ => rfl⟩
  · cases isInk

/-- Gray tints go through the levels that a space shows at 256 tints. -/
theorem exists_samples_of_grayTint {tint : NumericFunction Single Double}
    (isTint : space.grayTint = .ok tint) :
    ∃ samples : List Single, samples.length = 256 ∧ tint = .throughSamples samples 1 ∧
      ∀ step level, samples[step]? = some level →
        space.grayOfColor (.components [Scalar.ofNat step / 255.0]) = .ok level := by
  obtain ⟨samples, sampled, same⟩ := bind_eq_ok.1 isTint
  have each := mapM_eq_ok.1 sampled
  have count : samples.length = 256 := by rw [← each.length_eq, List.length_range]
  refine ⟨samples, count, (pure_eq_ok.1 same).symm, fun step level isLevel => ?_⟩
  obtain ⟨inside, rfl⟩ := List.getElem?_eq_some_iff.1 isLevel
  have shown := (List.forall₂_iff_get.1 each).2 step (by simpa [count] using inside) inside
  rw [List.get_eq_getElem, List.getElem_range] at shown
  exact shown

end Structure

variable [Analysis ℚ] {space gray : ColorSpace ℚ ℚ}

/-- In exact arithmetic the partner of one ink is a straight line between the levels that it stores, at 256
tints, of the space.  Beyond the first and the last tint it shows what it shows there. -/
theorem grayOfColor_toGray_of_oneInk (isInk : space.isOneInk = true) (converted : space.toGray = .ok gray) :
    ∃ levels : Nat → ℚ,
      (∀ step : Nat, step ≤ 255 →
        space.grayOfColor (.components [(step : ℚ) / 255]) = .ok (levels step) ∧
          gray.grayOfColor (.components [(step : ℚ) / 255]) = .ok (nearestLevel (levels step))) ∧
      (∀ step : Nat, step < 255 → ∀ tint : ℚ, (step : ℚ) / 255 ≤ tint → tint ≤ (step + 1) / 255 →
        gray.grayOfColor (.components [tint]) = .ok (nearestLevel (levels step) +
          (255 * tint - step) * (nearestLevel (levels (step + 1)) - nearestLevel (levels step)))) ∧
      (∀ tint : ℚ, tint ≤ 0 → gray.grayOfColor (.components [tint]) = .ok (nearestLevel (levels 0))) ∧
      ∀ tint : ℚ, 1 ≤ tint → gray.grayOfColor (.components [tint]) = .ok (nearestLevel (levels 255)) := by
  obtain ⟨tint, isTint, shows⟩ := exists_grayTint_of_toGray isInk converted
  obtain ⟨samples, count, rfl, sampled⟩ := exists_samples_of_grayTint isTint
  have isWord : samples.length ≤ 2 ^ 64 := by rw [count]; decide
  have several : 1 ≤ samples.length := by rw [count]; decide
  have shown {value level : ℚ}
      (applied : (NumericFunction.throughSamples samples 1 : NumericFunction ℚ ℚ).apply [value] =
        .ok [level]) :
      gray.grayOfColor (.components [value]) = .ok level := by
    rw [grayOfColor, colorToRgb, shows, alternateColor, applied]
    exact congrArg Except.ok (luminance_neutral level)
  have atStep (step : Nat) (inside : step ≤ 255) :
      (NumericFunction.throughSamples samples 1 : NumericFunction ℚ ℚ).apply [(step : ℚ) / 255] =
        .ok [nearestLevel (samples.getD step 0)] :=
    NumericFunction.apply_throughSamples_step count isWord (by norm_num) inside
  refine ⟨fun step => samples.getD step 0, fun step inside => ⟨?original, shown (atStep step inside)⟩,
    fun step inside value after before => shown ?between, fun value below => shown ?below,
    fun value above => shown ?above⟩
  case original =>
    have full : (255.0 : ℚ) = 255 := by norm_num
    have isSample : samples[step]? = some (samples.getD step 0) := by
      rw [List.getD_eq_getElem?_getD, List.getElem?_eq_getElem (by omega), Option.getD_some]
    exact full ▸ sampled step _ isSample
  case between => exact NumericFunction.apply_throughSamples_between count isWord inside after before
  case below =>
    have atFirst := atStep 0 (by norm_num)
    rw [Nat.cast_zero, zero_div] at atFirst
    rw [NumericFunction.apply_throughSamples_clip several isWord, min_eq_right (below.trans zero_le_one),
      max_eq_left below, atFirst]
  case above =>
    have atLast := atStep 255 le_rfl
    rw [Nat.cast_ofNat, div_self (by norm_num)] at atLast
    rw [NumericFunction.apply_throughSamples_clip several isWord, min_eq_left above,
      max_eq_right zero_le_one, atLast]

/-- An ink that goes from white to cyan. -/
def cyanInk : ColorSpace ℚ ℚ :=
  separation "Cyan" deviceRgb
    (.exponential ⟨NumericFunction.unitIntervals 1, none⟩ [1, 1, 1] [0, 1, 1] 1)

omit [Analysis ℚ] in
/-- Between the second and the third tint the partner of the ink shows the mean of the levels that are
stored there, and beyond full ink the level of full ink.  Of the functions of analysis only the power of a
tint matters, which is the tint. -/
theorem grayOfColor_toGray_of_oneInk_cyan :
    ∃ _ : Analysis ℚ, ∃ gray, cyanInk.isOneInk = true ∧ cyanInk.toGray = .ok gray ∧
      gray.grayOfColor (.components [1 / 170]) = .ok (509 / 510) ∧
      gray.grayOfColor (.components [2]) = .ok (179 / 255) := by
  let analysis : Analysis ℚ := ⟨id, fun base _ => base, id, id, id, id, fun ordinate _ => ordinate, 3⟩
  refine ⟨analysis, ?_⟩
  have shows {tint : ℚ} (within : tint ∈ Set.Icc (0 : ℚ) 1) :
      cyanInk.grayOfColor (.components [tint]) = .ok (1 - 3 / 10 * tint) := by
    show Except.ok (luminance (1 + Scalar.clip 0.0 1.0 tint * (0 - 1))
      (1 + Scalar.clip 0.0 1.0 tint * (1 - 1)) (1 + Scalar.clip 0.0 1.0 tint * (1 - 1))) = _
    rw [Exact.clip_of_mem within, Exact.luminance_eq]
    exact congrArg Except.ok (by ring)
  have unit (step : Nat) (inside : step ≤ 255) : (step : ℚ) / 255 ∈ Set.Icc (0 : ℚ) 1 := by
    have atMost : (step : ℚ) ≤ 255 := by exact_mod_cast inside
    exact ⟨by positivity, by linarith⟩
  obtain ⟨gray, converted⟩ : ∃ gray, cyanInk.toGray = .ok gray := by
    have full : (255.0 : ℚ) = 255 := by norm_num
    have each (step : Nat) (inside : step ∈ List.range 256) :=
      full ▸ shows (unit step (Nat.le_of_lt_succ (List.mem_range.1 inside)))
    exact ⟨_, bind_eq_ok.2 ⟨_, bind_eq_ok.2 ⟨_, mapM_eq_map each, rfl⟩, rfl⟩⟩
  obtain ⟨levels, steps, between, -, above⟩ := grayOfColor_toGray_of_oneInk rfl converted
  have isLevel (step : Nat) (inside : step ≤ 255) : levels step = 1 - 3 / 10 * (step / 255) :=
    Except.ok.inj ((steps step inside).1.symm.trans (shows (unit step inside)))
  refine ⟨gray, rfl, converted, ?_, ?_⟩
  · rw [between 1 (by norm_num) _ (by norm_num) (by norm_num), isLevel 1 (by norm_num),
      isLevel 2 (by norm_num)]
    norm_num [nearestLevel, round_eq]
  · rw [above 2 (by norm_num), isLevel 255 le_rfl]
    norm_num [nearestLevel, round_eq]

end ColorSpace
end Monochrome
