import Monochrome.Proofs.ExactLevels
import Monochrome.Proofs.Limits

/-!
# Gray partners of spaces with three components

The partner of a space with three components weighs them as red, green and blue, each moved into the
interval from zero to one, whatever they mean in the space.  In exact arithmetic it therefore shows the
level of the space where the components are red, green and blue.  For inks on paper it shows the
complement of their level.
-/

namespace Monochrome

open Limited Outcome

/-! ## Unit intervals -/

namespace NumericFunction

section Intervals

variable {Single : Type} [Scalar Single]

/-- The unit intervals of one more value. -/
theorem unitIntervals_succ (count : Nat) :
    (unitIntervals (count + 1) : List Single) = 0.0 :: 1.0 :: unitIntervals count :=
  rfl

/-- Each unit interval has two ends. -/
theorem length_unitIntervals (count : Nat) :
    (unitIntervals count : List Single).length = count * 2 := by
  induction count with
  | zero => rfl
  | succ count inductionHypothesis =>
      rw [unitIntervals_succ, List.length_cons, List.length_cons, inductionHypothesis]
      omega

/-- Each value is moved into its unit interval. -/
theorem clipAll_unitIntervals (values : List Single) :
    Scalar.clipAll (pairs (unitIntervals values.length)) values =
      values.map (Scalar.clip 0.0 1.0) := by
  induction values with
  | nil => rfl
  | cons value rest inductionHypothesis =>
      rw [List.length_cons, unitIntervals_succ, pairs, Scalar.clipAll, inductionHypothesis,
        List.map_cons]

/-- The inputs of a function whose domain is made of unit intervals. -/
theorem clipInputs_unitIntervals (inputs : List Single) :
    clipInputs (unitIntervals inputs.length) inputs = .ok (inputs.map (Scalar.clip 0.0 1.0)) := by
  have expected : (unitIntervals inputs.length : List Single).length / 2 = inputs.length := by
    rw [length_unitIntervals, Nat.mul_div_cancel _ (Nat.succ_pos 1)]
  simp only [clipInputs, expected, Nat.lt_irrefl, if_false, List.take_length, clipAll_unitIntervals]

end Intervals

section Programs

variable {Single Double : Type} [Scalar Single] [Analysis Single] [Scalar Double]
  [Analysis Double] [Precision Single Double]

/-- A program with unit intervals as its domain and range. -/
theorem apply_unitIntervals {program : Calculator.Program Double} {inputs outputs : List Single}
    {domain range : Nat} (hasDomain : inputs.length = domain) (hasRange : outputs.length = range)
    (ran : runProgram program (inputs.map (Scalar.clip 0.0 1.0)) = .ok outputs) :
    (calculator ⟨unitIntervals domain, some (unitIntervals range)⟩ program).apply inputs =
      .ok (outputs.map (Scalar.clip 0.0 1.0)) := by
  subst hasDomain hasRange
  rw [apply, clipInputs_unitIntervals, ok_bind, ran, ok_bind, clipOutputs, clipAll_unitIntervals]
  rfl

/-- The program that leaves three values as they are, with no black. -/
def withoutBlack : NumericFunction Single Double :=
  .calculator ⟨unitIntervals 3, some (unitIntervals 4)⟩ [.real 0.0]

end Programs

end NumericFunction

/-! ## The gray of three components -/

namespace ColorSpace

section Structure

variable {Single Double : Type}

/-- Whether the components of a space are red, green and blue. -/
def isAdditive : ColorSpace Single Double → Bool
  | deviceRgb => true
  | calRgb _ => true
  | profile components _ => components == 3
  | profileOver components alternate _ => components == 3 && alternate.isAdditive
  | _ => false

variable [Scalar Single] [Analysis Single] [Scalar Double] [Analysis Double]
  [Precision Single Double] {space : ColorSpace Single Double}

/-- The components of an additive space are what is seen. -/
theorem toRgb_of_isAdditive (additive : space.isAdditive = true) (red green blue : Single) :
    space.toRgb [red, green, blue] = .ok ⟨red, green, blue⟩ := by
  induction space with
  | deviceRgb | calRgb => rfl
  | profile components source =>
      obtain rfl : components = 3 := by simpa [isAdditive] using additive
      rfl
  | profileOver components alternate source inductionHypothesis =>
      obtain ⟨rfl, additive⟩ : components = 3 ∧ alternate.isAdditive = true := by
        simpa [isAdditive] using additive
      exact inductionHypothesis additive
  | _ => cases additive

/-- Components that are seen are as many as the space has. -/
theorem length_of_toRgb {values : List Single} {seen : Rgb Single}
    (shown : space.toRgb values = .ok seen) : values.length = space.componentCount := by
  unfold toRgb at shown
  split at shown
  all_goals
    simp only [ofOne, ofThree, ofFour, ofMany] at shown
    split at shown <;> first | rfl | assumption | cases shown

/-- A space with three components, which is none of patterns, has the partner of three components. -/
theorem toGray_of_three (three : space.componentCount = 3) (plain : space.isPattern = false) :
    space.toGray = .ok (deviceN ["R", "G", "B"] deviceGray .rgbToGray none) := by
  unfold toGray
  split
  case h_1 | h_2 => cases plain
  case h_3 | h_4 | h_5 => cases three
  case h_6 =>
    rw [three]
    rfl

end Structure

variable [Analysis ℚ]

/-- In exact arithmetic the partner of three components weighs them as red, green and blue. -/
theorem grayOfColor_rgbToGray (first second third : ℚ) :
    (deviceN ["R", "G", "B"] deviceGray .rgbToGray none : ColorSpace ℚ ℚ).grayOfColor
        (.components [first, second, third]) =
      .ok (luminance (Scalar.clip 0.0 1.0 first) (Scalar.clip 0.0 1.0 second)
        (Scalar.clip 0.0 1.0 third)) := by
  obtain ⟨red, isRed⟩ : ∃ red, red = Scalar.clip (0.0 : ℚ) 1.0 first := ⟨_, rfl⟩
  obtain ⟨green, isGreen⟩ : ∃ green, green = Scalar.clip (0.0 : ℚ) 1.0 second := ⟨_, rfl⟩
  obtain ⟨blue, isBlue⟩ : ∃ blue, blue = Scalar.clip (0.0 : ℚ) 1.0 third := ⟨_, rfl⟩
  have ran : NumericFunction.runProgram NumericFunction.weighing
      ([first, second, third].map (Scalar.clip 0.0 1.0)) = .ok [luminance red green blue] := by
    have sameSum : blue * 0.11 + green * 0.59 + red * 0.3 = luminance red green blue := by
      rw [Exact.luminance_eq]
      norm_num
      ring
    rw [← sameSum, isRed, isGreen, isBlue]
    rfl
  have applied : NumericFunction.rgbToGray.apply [first, second, third] =
      .ok [Scalar.clip 0.0 1.0 (luminance red green blue)] :=
    NumericFunction.apply_unitIntervals rfl rfl ran
  have within : luminance red green blue ∈ Set.Icc (0 : ℚ) 1 := by
    rw [isRed, isGreen, isBlue]
    exact Exact.luminance_mem (Exact.clip_mem _) (Exact.clip_mem _) (Exact.clip_mem _)
  rw [Exact.clip_of_mem within] at applied
  have shown : (deviceN ["R", "G", "B"] deviceGray .rgbToGray none : ColorSpace ℚ ℚ).toRgb
      [first, second, third] = .ok (.neutral (luminance red green blue)) := by
    simp only [toRgb, ofMany, alternateColor, applied]
    rfl
  rw [grayOfColor, colorToRgb, shown, ← isRed, ← isGreen, ← isBlue]
  exact congrArg Except.ok (luminance_neutral _)

omit [Analysis ℚ] in
/-- In exact arithmetic the gray level of red, green and blue is their luminance. -/
theorem gray_mk (red green blue : ℚ) : (Rgb.mk red green blue).gray = luminance red green blue :=
  rfl

/-- In exact arithmetic inks on paper have the complement of the level that their components have as red,
green and blue. -/
theorem grayOfColor_withoutBlack (colorants : List String) (attributes : Option Object)
    (three : colorants.length = 3) {cyan magenta yellow : ℚ} (isCyan : cyan ∈ Set.Icc (0 : ℚ) 1)
    (isMagenta : magenta ∈ Set.Icc (0 : ℚ) 1) (isYellow : yellow ∈ Set.Icc (0 : ℚ) 1) :
    (deviceN colorants deviceCmyk .withoutBlack attributes : ColorSpace ℚ ℚ).grayOfColor
        (.components [cyan, magenta, yellow]) =
      .ok (1 - luminance cyan magenta yellow) := by
  have ran : NumericFunction.runProgram [Calculator.Instruction.real (0.0 : ℚ)]
      ([cyan, magenta, yellow].map (Scalar.clip 0.0 1.0)) = .ok [cyan, magenta, yellow, 0] := by
    have zero : (0.0 : ℚ) = 0 := by norm_num
    rw [List.map_cons, List.map_cons, List.map_cons, List.map_nil, Exact.clip_of_mem isCyan,
      Exact.clip_of_mem isMagenta, Exact.clip_of_mem isYellow, ← zero]
    rfl
  have applied : NumericFunction.withoutBlack.apply [cyan, magenta, yellow] =
      .ok [cyan, magenta, yellow, 0] := by
    have outputs : [cyan, magenta, yellow, 0].map (Scalar.clip (0.0 : ℚ) 1.0) =
        [cyan, magenta, yellow, 0] := by
      simp only [List.map_cons, List.map_nil, Exact.clip_of_mem isCyan, Exact.clip_of_mem isMagenta,
        Exact.clip_of_mem isYellow, Exact.clip_of_mem (Set.left_mem_Icc.2 zero_le_one)]
    rw [← outputs]
    exact NumericFunction.apply_unitIntervals rfl rfl ran
  have darkens {ink : ℚ} (isInk : ink ∈ Set.Icc (0 : ℚ) 1) :
      (1.0 : ℚ) - Scalar.upTo (1.0 : ℚ) (ink + 0) = 1 - ink := by
    rw [Exact.upTo_one, add_zero, min_eq_right isInk.2]
    norm_num
  have shown : (deviceN colorants deviceCmyk .withoutBlack attributes : ColorSpace ℚ ℚ).toRgb
      [cyan, magenta, yellow] = .ok ⟨1 - cyan, 1 - magenta, 1 - yellow⟩ := by
    rw [← darkens isCyan, ← darkens isMagenta, ← darkens isYellow]
    simp only [toRgb, ofMany, three, alternateColor, applied]
    rfl
  rw [grayOfColor, colorToRgb, shown, ok_bind, gray_mk]
  simp only [Exact.luminance_eq]
  exact congrArg Except.ok (by ring)

/-- A space with three components, which is none of patterns, has a partner.  In exact arithmetic that
weighs all three components, moved into the interval from zero to one, as red, green and blue; so it shows
the level of a color that the space shows if and only if that is the level of these.  It does for all colors
of an additive space.  For inks on paper it shows the complement of their level. -/
theorem grayOfColor_toGray_of_three {space : ColorSpace ℚ ℚ} (three : space.componentCount = 3)
    (plain : space.isPattern = false) :
    ∃ gray, space.toGray = .ok gray ∧
      (∀ first second third, gray.grayOfColor (.components [first, second, third]) =
        .ok (luminance (Scalar.clip 0.0 1.0 first) (Scalar.clip 0.0 1.0 second)
          (Scalar.clip 0.0 1.0 third))) ∧
      (∀ color level, space.grayOfColor color = .ok level →
        ∃ first second third, color = .components [first, second, third] ∧
          (gray.grayOfColor color = .ok (Scalar.clip 0.0 1.0 level) ↔
            Scalar.clip 0.0 1.0 level = luminance (Scalar.clip 0.0 1.0 first)
              (Scalar.clip 0.0 1.0 second) (Scalar.clip 0.0 1.0 third))) ∧
      ∀ first ∈ Set.Icc (0 : ℚ) 1, ∀ second ∈ Set.Icc (0 : ℚ) 1, ∀ third ∈ Set.Icc (0 : ℚ) 1,
        (space.isAdditive = true → ∃ level,
          space.grayOfColor (.components [first, second, third]) = .ok level ∧
          gray.grayOfColor (.components [first, second, third]) = .ok (Scalar.clip 0.0 1.0 level)) ∧
        ∀ colorants attributes, space = deviceN colorants deviceCmyk .withoutBlack attributes →
          ∃ level, space.grayOfColor (.components [first, second, third]) = .ok level ∧
            gray.grayOfColor (.components [first, second, third]) = .ok (1 - level) := by
  refine ⟨_, toGray_of_three three plain, grayOfColor_rgbToGray, fun color level shown => ?general,
    fun first isFirst second isSecond third isThird => ⟨fun additive => ?additive, ?inks⟩⟩
  case general =>
    cases color with
    | pattern name underlying =>
        -- A space that is none of patterns shows no pattern.
        cases underlying with
        | none => cases shown
        | some values =>
            cases space with
            | patternOver => cases plain
            | _ => cases shown
    | components values =>
        obtain ⟨seen, isSeen, -⟩ := bind_eq_ok.1 shown
        have count : values.length = 3 := (length_of_toRgb isSeen).trans three
        obtain ⟨first, second, third, rfl⟩ := List.length_eq_three.1 count
        refine ⟨first, second, third, rfl, ?_⟩
        rw [grayOfColor_rgbToGray, Except.ok.injEq]
        exact eq_comm
  case additive =>
    have within := Exact.luminance_mem isFirst isSecond isThird
    refine ⟨luminance first second third, ?_, ?_⟩
    · rw [grayOfColor, colorToRgb, toRgb_of_isAdditive additive]
      rfl
    · rw [grayOfColor_rgbToGray, Exact.clip_of_mem within, Exact.clip_of_mem isFirst,
        Exact.clip_of_mem isSecond, Exact.clip_of_mem isThird]
  case inks =>
    rintro colorants attributes rfl
    refine ⟨_, grayOfColor_withoutBlack colorants attributes three isFirst isSecond isThird, ?_⟩
    rw [grayOfColor_rgbToGray, Exact.clip_of_mem isFirst, Exact.clip_of_mem isSecond,
      Exact.clip_of_mem isThird, sub_sub_cancel]

omit [Analysis ℚ] in
/-- Red is shown as it was, while paper without ink, which is white, is shown in black.  Roots and sines do
not matter for that, so any functions stand for them. -/
theorem grayOfColor_toGray_of_three_inks :
    ∃ _ : Analysis ℚ, ∃ gray inks : ColorSpace ℚ ℚ,
      (deviceRgb : ColorSpace ℚ ℚ).toGray = .ok gray ∧
      (deviceRgb : ColorSpace ℚ ℚ).grayOfColor (.components [1, 0, 0]) = .ok (3 / 10) ∧
      gray.grayOfColor (.components [1, 0, 0]) = .ok (3 / 10) ∧
      (deviceN ["Cyan", "Magenta", "Yellow"] deviceCmyk .withoutBlack none : ColorSpace ℚ ℚ).toGray =
        .ok inks ∧
      (deviceN ["Cyan", "Magenta", "Yellow"] deviceCmyk .withoutBlack none : ColorSpace ℚ ℚ).grayOfColor
        (.components [0, 0, 0]) = .ok 1 ∧
      inks.grayOfColor (.components [0, 0, 0]) = .ok 0 := by
  have zero : (0 : ℚ) ∈ Set.Icc 0 1 := Set.left_mem_Icc.2 zero_le_one
  have one : (1 : ℚ) ∈ Set.Icc 0 1 := Set.right_mem_Icc.2 zero_le_one
  have analysis : Analysis ℚ := ⟨id, fun base _ => base, id, id, id, id, fun ordinate _ => ordinate, 3⟩
  refine ⟨analysis, ?_⟩
  have three : (deviceN ["Cyan", "Magenta", "Yellow"] deviceCmyk .withoutBlack none :
      ColorSpace ℚ ℚ).componentCount = 3 := rfl
  have additive : (deviceRgb : ColorSpace ℚ ℚ).componentCount = 3 := rfl
  obtain ⟨gray, isGray, -, -, colors⟩ := grayOfColor_toGray_of_three additive rfl
  obtain ⟨inks, areInks, weighs, -, papers⟩ := grayOfColor_toGray_of_three three rfl
  obtain ⟨level, isLevel, isShown⟩ := (colors 1 one 0 zero 0 zero).1 rfl
  obtain ⟨paper, isPaper, isDark⟩ := (papers 0 zero 0 zero 0 zero).2 _ _ rfl
  have isRed : level = 3 / 10 := by
    rw [← Except.ok.inj isLevel]
    exact (Exact.luminance_eq 1 0 0).trans (by norm_num)
  have isWhite : paper = 1 := by
    have black := (isDark.symm.trans (weighs 0 0 0))
    rw [Exact.clip_of_mem zero, luminance_neutral, Except.ok.injEq] at black
    linarith
  subst isRed isWhite
  rw [Exact.clip_of_mem ⟨by norm_num, by norm_num⟩] at isShown
  rw [sub_self] at isDark
  exact ⟨gray, inks, isGray, isLevel, isShown, areInks, isPaper, isDark⟩

end ColorSpace
end Monochrome
