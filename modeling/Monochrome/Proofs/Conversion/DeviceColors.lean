import Monochrome.Proofs.Conversion.Repeating
import Monochrome.Proofs.ExactLevels
import Monochrome.Proofs.Limits

/-!
# Colors of device spaces

A color of light or of inks is set by an operator of its own, or as a color of its space after the space
was selected.  The level that a conversion writes is computed from the components at once, or from what is
seen of them.  For light both are the luminance.  Inks darken together until the paper is full, or each
channel by itself until it is black; in exact arithmetic the first level is at most the second.  They are
the same if no channel would get darker than black, or none stays lighter.
-/

namespace Monochrome

/-- A color of light or of inks. -/
inductive DeviceColor (Single : Type)
  | light (red green blue : Single)
  | inks (cyan magenta yellow black : Single)

namespace DeviceColor

section Levels

variable {Single Double : Type}

/-- The components of a color. -/
def values : DeviceColor Single → List Single
  | light red green blue => [red, green, blue]
  | inks cyan magenta yellow black => [cyan, magenta, yellow, black]

/-- The space of a color. -/
def space : DeviceColor Single → ColorSpace Single Double
  | light _ _ _ => .deviceRgb
  | inks _ _ _ _ => .deviceCmyk

/-- The name of the space of a color. -/
def spaceName : DeviceColor Single → String
  | light _ _ _ => "DeviceRGB"
  | inks _ _ _ _ => "DeviceCMYK"

/-- The operator that sets a color at once. -/
def operator (slot : Slot) : DeviceColor Single → Operator
  | light _ _ _ => .setRgb slot
  | inks _ _ _ _ => .setCmyk slot

variable [Scalar Single] [Scalar Double] [Precision Single Double]

/-- What is seen of a color. -/
def seen : DeviceColor Single → Rgb Single
  | light red green blue => ⟨red, green, blue⟩
  | inks cyan magenta yellow black => .ofInks cyan magenta yellow black

/-- The level of a color that is set at once. -/
def levelAtOnce : DeviceColor Single → Double
  | light red green blue =>
    luminance (Precision.widen red) (Precision.widen green) (Precision.widen blue)
  | inks cyan magenta yellow black =>
    inkLuminance (Precision.widen cyan) (Precision.widen magenta) (Precision.widen yellow)
      (Precision.widen black)

/-- The level of a color that is set in its space. -/
def levelInSpace (color : DeviceColor Single) : Double :=
  Precision.widen color.seen.gray

end Levels

/-! ## Levels that are written -/

section Writing

open Conversion Change Limited

variable {convert : StreamConversion} {walk : Walk} {slot : Slot} {keyword : String}
  {color : DeviceColor Float32} {operands : List Object}

/-- Whether operands are the components of a color. -/
def IsToldBy (color : DeviceColor Float32) (operands : List Object) : Prop :=
  List.Forall₂ (fun operand value => operand.number? = some value) operands color.values

/-- The operands of a color are read as numbers. -/
theorem IsToldBy.numbers (isTold : color.IsToldBy operands) (keyword : String) :
    Operands.numbers keyword operands = .ok color.values :=
  Operands.numbers_eq_ok.2 isTold

/-- The operands of a color are as many as its space has components. -/
theorem IsToldBy.expectCount (isTold : color.IsToldBy operands) (keyword : String) :
    Operands.expectCount keyword operands
      (color.space : ColorSpace Float32 Float).componentCount = .ok () := by
  rw [Operands.expectCount_eq_ok, List.Forall₂.length_eq isTold]
  cases color <;> rfl

/-- The operands of a color are read as a color of its space. -/
theorem IsToldBy.plainColor (isTold : color.IsToldBy operands) (keyword : String) :
    GraphicsState.plainColor color.space keyword operands = .ok (.components color.values) := by
  rw [GraphicsState.plainColor, isTold.numbers]
  cases color <;> rfl

/-- The operands of a color are read as a color that is set at once. -/
theorem IsToldBy.deviceInk (isTold : color.IsToldBy operands) (keyword : String) :
    GraphicsState.deviceInk color.space keyword operands =
      .ok ⟨color.space, .components color.values⟩ := by
  rw [GraphicsState.deviceInk, isTold.expectCount, ok_bind, isTold.plainColor]
  rfl

/-- A color is seen in its space. -/
theorem toRgb_space (color : DeviceColor Float32) :
    (color.space : ColorSpace Float32 Float).toRgb color.values = .ok color.seen := by
  cases color <;> rfl

/-- The space of a color is none of patterns. -/
theorem isPattern_space (color : DeviceColor Float32) :
    (color.space : ColorSpace Float32 Float).isPattern = false := by
  cases color <;> rfl

/-- The name of the space of a color stands for it. -/
theorem namedSpace_spaceName (color : DeviceColor Float32) (scope : Scope) (keyword : String) :
    GraphicsState.namedSpace scope keyword [.named color.spaceName] = .ok color.space := by
  have isName : Operands.singleName keyword [.named color.spaceName] = .ok color.spaceName := by
    refine Operands.singleName_eq_ok.2 ⟨_, rfl, ?_⟩
    have isAscii : Bytes.ascii color.spaceName = Text.toBytes color.spaceName := by
      cases color with
      | light => exact (by decide : Bytes.ascii "DeviceRGB" = Text.toBytes "DeviceRGB")
      | inks => exact (by decide : Bytes.ascii "DeviceCMYK" = Text.toBytes "DeviceCMYK")
    rw [Object.named, Object.text?, Text.ofBytes_ascii isAscii]
  rw [GraphicsState.namedSpace, isName]
  cases color <;> rfl

/-! ### Colors that are set at once -/

/-- An operator that sets a color at once selects it in its space. -/
theorem follow_atOnce (isTold : color.IsToldBy operands)
    (isOperator : Operator.ofKeyword keyword = color.operator slot) (state : GraphicsState)
    (scope : Scope) : state.follow scope ⟨keyword, operands⟩ =
      .ok (state.setInk slot ⟨color.space, .components color.values⟩) := by
  refine GraphicsState.follow_eq_ok state ?_ ?_
  · rw [isOperator]
    cases color <;> rfl
  · rw [isOperator, ← isTold.deviceInk ((color.operator slot).keyword?.getD "")]
    cases color <;> rfl

/-- An operator that sets a color at once becomes one that sets the level of its components. -/
theorem convertFollowed_atOnce (isTold : color.IsToldBy operands)
    (isOperator : Operator.ofKeyword keyword = color.operator slot) (walk : Walk) :
    ∃ after, convertFollowed convert ⟨keyword, operands⟩ walk =
      .ok ⟨slot.grayKeyword, [grayOperand color.levelAtOnce]⟩ after := by
  have count := isTold.expectCount keyword
  have numbers := isTold.numbers keyword
  cases color with
  | light red green blue =>
      simp only [convertFollowed, isOperator, operator, convertRgb]
      exact ⟨_, bind_eq_ok.2 ⟨_, _, lift_eq_ok.2 ⟨count, rfl⟩,
        bind_eq_ok.2 ⟨_, _, lift_eq_ok.2 ⟨numbers, rfl⟩, rfl⟩⟩⟩
  | inks cyan magenta yellow black =>
      simp only [convertFollowed, isOperator, operator, convertInks]
      exact ⟨_, bind_eq_ok.2 ⟨_, _, lift_eq_ok.2 ⟨count, rfl⟩,
        bind_eq_ok.2 ⟨_, _, lift_eq_ok.2 ⟨numbers, rfl⟩, rfl⟩⟩⟩

/-- An operator that sets a color at once is converted to one that sets the level of its components. -/
theorem convertOperation_atOnce (isTold : color.IsToldBy operands)
    (isOperator : Operator.ofKeyword keyword = color.operator slot) :
    ∃ after, convertOperation convert ⟨keyword, operands⟩ walk =
      .ok ⟨slot.grayKeyword, [grayOperand color.levelAtOnce]⟩ after := by
  have followed := follow_atOnce isTold isOperator walk.state walk.scope
  obtain ⟨after, converted⟩ := convertFollowed_atOnce isTold isOperator _
  exact ⟨after, convertOperation_eq_ok.2 ⟨_, followed, converted⟩⟩

/-! ### Colors that are set in their space -/

/-- An operator that selects a space that is none of patterns becomes one that selects gray. -/
theorem convertFollowed_space (isOperator : Operator.ofKeyword keyword = .setSpace slot) (walk : Walk)
    (plain : (walk.state.ink slot).space.isPattern = false) :
    ∃ after, convertFollowed convert ⟨keyword, operands⟩ walk =
      .ok ⟨keyword, [.named "DeviceGray"]⟩ after ∧ after.state = walk.state := by
  have isSpace : convertFollowed convert ⟨keyword, operands⟩ walk =
      counted ⟨keyword, [.named "DeviceGray"]⟩ walk := by
    rw [convertFollowed, isOperator]
    show (if (walk.state.ink slot).space.isPattern = true then _ else _ : Change Walk Operation) walk = _
    rw [plain]
    rfl
  exact ⟨_, isSpace, rfl⟩

/-- An operation that selects the space of a color is converted to one that selects gray; later colors
are read in the space. -/
theorem convertOperation_space (color : DeviceColor Float32)
    (isOperator : Operator.ofKeyword keyword = .setSpace slot) :
    ∃ after, convertOperation convert ⟨keyword, [.named color.spaceName]⟩ walk =
        .ok ⟨keyword, [.named "DeviceGray"]⟩ after ∧ (after.state.ink slot).space = color.space := by
  have followed : walk.state.follow walk.scope ⟨keyword, [.named color.spaceName]⟩ =
      .ok (walk.state.setInk slot (.initial color.space)) :=
    GraphicsState.follow_space walk.state isOperator (namedSpace_spaceName color walk.scope)
  have isSpace : ((walk.state.setInk slot (.initial color.space)).ink slot).space = color.space := by
    rw [ink_setInk]
    rfl
  obtain ⟨after, converted, sameState⟩ := convertFollowed_space isOperator
    { walk with state := walk.state.setInk slot (.initial color.space) } (by
      show ((walk.state.setInk slot (.initial color.space)).ink slot).space.isPattern = false
      rw [isSpace, isPattern_space])
  refine ⟨after, convertOperation_eq_ok.2 ⟨_, followed, converted⟩, ?_⟩
  rw [sameState]
  exact isSpace

/-- An operator that sets a color in its space is converted to one that sets the level of what is
seen. -/
theorem convertOperation_inSpace (isTold : color.IsToldBy operands)
    (isOperator : Operator.ofKeyword keyword = .setColor slot ∨
      Operator.ofKeyword keyword = .setPatternColor slot)
    (isSpace : (walk.state.ink slot).space = color.space) :
    ∃ after, convertOperation convert ⟨keyword, operands⟩ walk =
      .ok ⟨keyword, [grayOperand color.levelInSpace]⟩ after := by
  have followed : walk.state.follow walk.scope ⟨keyword, operands⟩ =
      .ok (walk.state.setInk slot ⟨color.space, .components color.values⟩) := by
    refine GraphicsState.follow_eq_ok walk.state ?_ ?_
    · rcases isOperator with isOperator | isOperator <;> rw [isOperator] <;> rfl
    · generalize walk.state.ink slot = ink at isSpace
      obtain ⟨space, former⟩ := ink
      obtain rfl : space = color.space := isSpace
      rcases isOperator with isOperator | isOperator <;>
        simp [GraphicsState.inkAfter, isOperator, isTold.plainColor, isPattern_space, pure, Except.pure]
  obtain ⟨set, isSet⟩ : ∃ set, set =
      walk.state.setInk slot ⟨color.space, .components color.values⟩ := ⟨_, rfl⟩
  have isInk : set.ink slot = ⟨color.space, .components color.values⟩ := by
    rw [isSet, ink_setInk]
  rw [← isSet] at followed
  have converted : convertColor convert (set.ink slot) { walk with state := set } =
      .ok [grayOperand color.levelInSpace] { walk with state := set } := by
    rw [isInk]
    exact bind_eq_ok.2 ⟨_, _, lift_eq_ok.2 ⟨toRgb_space color, rfl⟩, rfl⟩
  exact ⟨_, convertOperation_eq_ok.2 ⟨set, followed,
    (convertFollowed_color isOperator).2 ⟨_, _, converted, rfl⟩⟩⟩

/-- Whether a conversion writes one level for a color that is set at once, and another one for the color
that is set after its space was selected. -/
structure IsWrittenAs (color : DeviceColor Float32) (atOnce inSpace : Float) : Prop where
  atOnce {keyword : String} {slot : Slot} (isOperator : Operator.ofKeyword keyword = color.operator slot)
    {operands : List Object} (isTold : color.IsToldBy operands) (convert : StreamConversion)
    (walk : Walk) : ∃ after, convertOperation convert ⟨keyword, operands⟩ walk =
      .ok ⟨slot.grayKeyword, [grayOperand atOnce]⟩ after
  inSpace {select set : String} {slot : Slot} (selects : Operator.ofKeyword select = .setSpace slot)
    (sets : Operator.ofKeyword set = .setColor slot ∨ Operator.ofKeyword set = .setPatternColor slot)
    {operands : List Object} (isTold : color.IsToldBy operands) (convert : StreamConversion)
    (walk : Walk) : ∃ selected after,
      convertOperation convert ⟨select, [.named color.spaceName]⟩ walk =
        .ok ⟨select, [.named "DeviceGray"]⟩ selected ∧
      convertOperation convert ⟨set, operands⟩ selected = .ok ⟨set, [grayOperand inSpace]⟩ after

/-- The levels of a color are those that a conversion writes. -/
theorem isWrittenAs_levels (color : DeviceColor Float32) :
    color.IsWrittenAs color.levelAtOnce color.levelInSpace where
  atOnce isOperator _ isTold _ _ := convertOperation_atOnce isTold isOperator
  inSpace selects sets _ isTold convert walk := by
    obtain ⟨selected, isSelected, isSpace⟩ := convertOperation_space color selects
    obtain ⟨after, isSet⟩ := convertOperation_inSpace isTold sets isSpace
    exact ⟨selected, after, isSelected, isSet⟩

end Writing

end DeviceColor

/-! ## Levels in exact arithmetic -/

namespace Exact

/-- A weighted sum of values that are not negative is zero only if they are. -/
theorem luminance_eq_zero_iff {red green blue : ℚ} (isRed : 0 ≤ red) (isGreen : 0 ≤ green)
    (isBlue : 0 ≤ blue) : luminance red green blue = 0 ↔ red = 0 ∧ green = 0 ∧ blue = 0 := by
  rw [luminance_eq]
  constructor
  · intro isZero
    refine ⟨?_, ?_, ?_⟩ <;> linarith
  · rintro ⟨rfl, rfl, rfl⟩
    norm_num

/-- A weighted sum of values that are not negative is not negative. -/
theorem luminance_nonneg {red green blue : ℚ} (isRed : 0 ≤ red) (isGreen : 0 ≤ green)
    (isBlue : 0 ≤ blue) : 0 ≤ luminance red green blue := by
  rw [luminance_eq]
  positivity

/-- Values that end at one each have a lesser sum than if they ended there together: less by what they
lack to one, or by what they have above it, whichever is less. -/
theorem min_luminance (red green blue : ℚ) :
    min 1 (luminance red green blue) =
      luminance (min 1 red) (min 1 green) (min 1 blue) +
        min (luminance (max (1 - red) 0) (max (1 - green) 0) (max (1 - blue) 0))
          (luminance (max (red - 1) 0) (max (green - 1) 0) (max (blue - 1) 0)) := by
  have lacks (value : ℚ) : max (1 - value) 0 = 1 - min 1 value := by
    rcases le_total value 1 with below | above
    · rw [max_eq_left (sub_nonneg.2 below), min_eq_right below]
    · rw [max_eq_right (sub_nonpos.2 above), min_eq_left above, sub_self]
  have exceeds (value : ℚ) : max (value - 1) 0 = value - min 1 value := by
    rcases le_total value 1 with below | above
    · rw [max_eq_right (sub_nonpos.2 below), min_eq_right below, sub_self]
    · rw [max_eq_left (sub_nonneg.2 above), min_eq_left above]
  rw [← min_add_add_left]
  simp only [lacks, exceeds, luminance_eq]
  congr 1 <;> ring

/-- Values that end at one each have no greater sum than if they ended there together. -/
theorem luminance_min_le (red green blue : ℚ) :
    luminance (min 1 red) (min 1 green) (min 1 blue) ≤ min 1 (luminance red green blue) := by
  rw [min_luminance]
  exact le_add_of_nonneg_right (le_min
    (luminance_nonneg (le_max_right _ _) (le_max_right _ _) (le_max_right _ _))
    (luminance_nonneg (le_max_right _ _) (le_max_right _ _) (le_max_right _ _)))

/-- The sums are the same if none of the values is above one, or none below it. -/
theorem luminance_min_eq_iff (red green blue : ℚ) :
    luminance (min 1 red) (min 1 green) (min 1 blue) = min 1 (luminance red green blue) ↔
      (red ≤ 1 ∧ green ≤ 1 ∧ blue ≤ 1) ∨ (1 ≤ red ∧ 1 ≤ green ∧ 1 ≤ blue) := by
  have lack : luminance (max (1 - red) 0) (max (1 - green) 0) (max (1 - blue) 0) = 0 ↔
      1 ≤ red ∧ 1 ≤ green ∧ 1 ≤ blue := by
    rw [luminance_eq_zero_iff (le_max_right _ _) (le_max_right _ _) (le_max_right _ _)]
    simp only [max_eq_right_iff, sub_nonpos]
  have excess : luminance (max (red - 1) 0) (max (green - 1) 0) (max (blue - 1) 0) = 0 ↔
      red ≤ 1 ∧ green ≤ 1 ∧ blue ≤ 1 := by
    rw [luminance_eq_zero_iff (le_max_right _ _) (le_max_right _ _) (le_max_right _ _)]
    simp only [max_eq_right_iff, sub_nonpos]
  rw [min_luminance, left_eq_add, ← lack, ← excess, or_comm]
  have notNegative : 0 ≤ luminance (max (1 - red) 0) (max (1 - green) 0) (max (1 - blue) 0) :=
    luminance_nonneg (le_max_right _ _) (le_max_right _ _) (le_max_right _ _)
  have notNegativeEither : 0 ≤ luminance (max (red - 1) 0) (max (green - 1) 0) (max (blue - 1) 0) :=
    luminance_nonneg (le_max_right _ _) (le_max_right _ _) (le_max_right _ _)
  constructor
  · intro isZero
    rcases min_choice (luminance (max (1 - red) 0) (max (1 - green) 0) (max (1 - blue) 0))
      (luminance (max (red - 1) 0) (max (green - 1) 0) (max (blue - 1) 0)) with first | second
    · exact Or.inl (first.symm.trans isZero)
    · exact Or.inr (second.symm.trans isZero)
  · rintro (isZero | isZero)
    · rw [isZero, min_eq_left notNegativeEither]
    · rw [isZero, min_eq_right notNegative]

end Exact

namespace DeviceColor

open Conversion

variable {cyan magenta yellow black : ℚ}

/-- Inks that are set at once darken together, up to full coverage. -/
theorem levelAtOnce_inks (isCyan : 0 ≤ cyan) (isMagenta : 0 ≤ magenta) (isYellow : 0 ≤ yellow)
    (isBlack : 0 ≤ black) : (inks cyan magenta yellow black).levelAtOnce =
      1 - min 1 (luminance (cyan + black) (magenta + black) (yellow + black)) := by
  have coverage : luminance cyan magenta yellow + black =
      luminance (cyan + black) (magenta + black) (yellow + black) := by
    simp only [Exact.luminance_eq]
    ring
  have covers := Exact.luminance_nonneg (add_nonneg isCyan isBlack) (add_nonneg isMagenta isBlack)
    (add_nonneg isYellow isBlack)
  have one : (1.0 : ℚ) = 1 := by norm_num
  show Scalar.clip (0.0 : ℚ) 1.0 (1.0 - Scalar.upTo (1.0 : ℚ) (luminance cyan magenta yellow + black)) = _
  have within : 1 - min 1 (luminance (cyan + black) (magenta + black) (yellow + black)) ∈
      Set.Icc (0 : ℚ) 1 :=
    ⟨sub_nonneg.2 (min_le_left _ _), sub_le_self _ (le_min zero_le_one covers)⟩
  rw [Exact.upTo_one, coverage, ← Exact.clip_of_mem within, one]

/-- Inks that are set in their space darken each channel by itself. -/
theorem levelInSpace_inks (cyan magenta yellow black : ℚ) :
    (inks cyan magenta yellow black).levelInSpace =
      1 - luminance (min 1 (cyan + black)) (min 1 (magenta + black)) (min 1 (yellow + black)) := by
  show luminance ((1.0 : ℚ) - Scalar.upTo (1.0 : ℚ) (cyan + black))
    ((1.0 : ℚ) - Scalar.upTo (1.0 : ℚ) (magenta + black))
    ((1.0 : ℚ) - Scalar.upTo (1.0 : ℚ) (yellow + black)) = _
  have one : (1.0 : ℚ) = 1 := by norm_num
  rw [Exact.upTo_one, Exact.upTo_one, Exact.upTo_one, one]
  simp only [Exact.luminance_eq]
  ring

/-- A conversion writes the level of each color that is set at once, and its level in its space.  In exact
arithmetic these are the same for light.  For inks the level at once is at most the level in the space; they
are the same if and only if no ink has, with black, more than full coverage, or none has less. -/
theorem levelAtOnce_eq_levelInSpace_iff :
    (∀ color : DeviceColor Float32, color.IsWrittenAs color.levelAtOnce color.levelInSpace) ∧
    (∀ red green blue : ℚ, (light red green blue).levelAtOnce = (light red green blue).levelInSpace) ∧
    ∀ cyan ∈ Set.Icc (0 : ℚ) 1, ∀ magenta ∈ Set.Icc (0 : ℚ) 1, ∀ yellow ∈ Set.Icc (0 : ℚ) 1,
      ∀ black ∈ Set.Icc (0 : ℚ) 1,
        (inks cyan magenta yellow black).levelAtOnce ≤ (inks cyan magenta yellow black).levelInSpace ∧
        ((inks cyan magenta yellow black).levelAtOnce = (inks cyan magenta yellow black).levelInSpace ↔
          (cyan + black ≤ 1 ∧ magenta + black ≤ 1 ∧ yellow + black ≤ 1) ∨
            (1 ≤ cyan + black ∧ 1 ≤ magenta + black ∧ 1 ≤ yellow + black)) := by
  refine ⟨isWrittenAs_levels, fun _ _ _ => rfl,
    fun cyan isCyan magenta isMagenta yellow isYellow black isBlack => ?_⟩
  rw [levelAtOnce_inks isCyan.1 isMagenta.1 isYellow.1 isBlack.1, levelInSpace_inks]
  constructor
  · exact sub_le_sub_left (Exact.luminance_min_le _ _ _) 1
  · rw [sub_right_inj, eq_comm, Exact.luminance_min_eq_iff]

/-- Cyan with much black is written as black if it is set at once, but not if it is set in its space; cyan
with less black has the same level. -/
theorem levelAtOnce_eq_levelInSpace_cyan :
    (∃ walk selected after last : Walk,
      convertOperation (streamConversion default)
          ⟨"k", [.real 1.0, .real 0.0, .real 0.0, .real 0.8]⟩ walk = .ok ⟨"g", [.real 0.0]⟩ after ∧
      convertOperation (streamConversion default) ⟨"cs", [.named "DeviceCMYK"]⟩ walk =
        .ok ⟨"cs", [.named "DeviceGray"]⟩ selected ∧
      convertOperation (streamConversion default)
          ⟨"sc", [.real 1.0, .real 0.0, .real 0.0, .real 0.8]⟩ selected =
        .ok ⟨"sc", [.real 0.14]⟩ last) ∧
    (inks (1 : ℚ) 0 0 (4 / 5)).levelAtOnce ≤ (inks (1 : ℚ) 0 0 (4 / 5)).levelInSpace ∧
    (inks (1 / 2 : ℚ) 0 0 (1 / 4)).levelAtOnce = (inks (1 / 2 : ℚ) 0 0 (1 / 4)).levelInSpace := by
  obtain ⟨written, -, compared⟩ := levelAtOnce_eq_levelInSpace_iff
  refine ⟨?_, ?_, ?_⟩
  · have isTold : (inks 1.0 0.0 0.0 0.8).IsToldBy
        [.real 1.0, .real 0.0, .real 0.0, .real 0.8] :=
      .cons rfl (.cons rfl (.cons rfl (.cons rfl .nil)))
    have black : grayOperand (inks (1.0 : Float32) 0.0 0.0 0.8).levelAtOnce = .real 0.0 := by
      rw [grayOperand_eq, if_pos]
      decide +kernel
    have visible : grayOperand (inks (1.0 : Float32) 0.0 0.0 0.8).levelInSpace = .real 0.14 := by
      rw [grayOperand_eq, if_neg (by decide +kernel)]
      exact congrArg Object.real (by decide +kernel)
    have isWritten := written (inks 1.0 0.0 0.0 0.8)
    let walk : Walk := ⟨⟨⟨default, default⟩, default⟩, default, {}, {}, {}, {}⟩
    have sets : Operator.ofKeyword "k" = (inks 1.0 0.0 0.0 0.8).operator .fill := rfl
    have selects : Operator.ofKeyword "cs" = .setSpace .fill := rfl
    have setsInSpace : Operator.ofKeyword "sc" = .setColor .fill := rfl
    obtain ⟨after, atOnce⟩ := isWritten.atOnce sets isTold (streamConversion default) walk
    obtain ⟨selected, last, isSelected, inSpace⟩ :=
      isWritten.inSpace selects (Or.inl setsInSpace) isTold (streamConversion default) walk
    rw [black] at atOnce
    rw [visible] at inSpace
    exact ⟨walk, selected, after, last, atOnce, isSelected, inSpace⟩
  · exact (compared 1 ⟨by norm_num, by norm_num⟩ 0 ⟨by norm_num, by norm_num⟩ 0
      ⟨by norm_num, by norm_num⟩ (4 / 5) ⟨by norm_num, by norm_num⟩).1
  · exact (compared (1 / 2) ⟨by norm_num, by norm_num⟩ 0 ⟨by norm_num, by norm_num⟩ 0
      ⟨by norm_num, by norm_num⟩ (1 / 4) ⟨by norm_num, by norm_num⟩).2.2
      (Or.inl ⟨by norm_num, by norm_num, by norm_num⟩)

/-- The levels of cyan with much black differ also as they are rounded, in exact arithmetic. -/
theorem sixDecimals_cyan_with_black :
    sixDecimals (inks (1 : ℚ) 0 0 (4 / 5)).levelAtOnce = 0 ∧
      sixDecimals (inks (1 : ℚ) 0 0 (4 / 5)).levelInSpace = 7 / 50 ∧
      ¬∀ color : DeviceColor ℚ, (∀ value ∈ color.values, value ∈ Set.Icc (0 : ℚ) 1) →
        sixDecimals color.levelAtOnce = sixDecimals color.levelInSpace := by
  have atOnce : sixDecimals (inks (1 : ℚ) 0 0 (4 / 5)).levelAtOnce = 0 := by decide +kernel
  have inSpace : sixDecimals (inks (1 : ℚ) 0 0 (4 / 5)).levelInSpace = 7 / 50 := by decide +kernel
  refine ⟨atOnce, inSpace, fun same => ?_⟩
  have sameHere := same (inks 1 0 0 (4 / 5)) (by
    simp only [values, List.forall_mem_cons, Set.mem_Icc]
    norm_num)
  rw [atOnce, inSpace] at sameHere
  exact absurd sameHere (by norm_num)

end DeviceColor
end Monochrome
