import Monochrome.Proofs.Calculator.ReadingBack
import Monochrome.Proofs.Calculator.StackOperators
import Monochrome.Proofs.ColorSpace.ThreeComponents
import Monochrome.Proofs.NumericFunction.ReadingBack

/-!
# Programs that compute the luminance

In exact arithmetic the programs to gray compute the luminance of their inputs, each moved into the
interval from zero to one; the one for inks takes the complement of their coverage, which ends at full
coverage.  Moving the outputs into the range changes nothing, since they are in it.  A program that is
stored is read back as it was, and the decimals in which its constants are written are exactly the weights.
-/

namespace Monochrome

/-- In exact arithmetic the level of inks in the unit interval is the complement of their coverage, up to full
coverage. -/
theorem Exact.inkLuminance_eq {cyan magenta yellow black : ℚ} (isCyan : cyan ∈ Set.Icc (0 : ℚ) 1)
    (isMagenta : magenta ∈ Set.Icc (0 : ℚ) 1) (isYellow : yellow ∈ Set.Icc (0 : ℚ) 1)
    (isBlack : black ∈ Set.Icc (0 : ℚ) 1) :
    inkLuminance cyan magenta yellow black = 1 - min 1 (luminance cyan magenta yellow + black) := by
  have weighed := (luminance_mem isCyan isMagenta isYellow).1
  have covered : 0 ≤ min 1 (luminance cyan magenta yellow + black) :=
    le_min zero_le_one (add_nonneg weighed isBlack.1)
  have atMost := min_le_left 1 (luminance cyan magenta yellow + black)
  have one : (1.0 : ℚ) = 1 := by norm_num
  show Scalar.clip 0.0 1.0 ((1.0 : ℚ) - Scalar.upTo 1.0 (luminance cyan magenta yellow + black)) = _
  rw [upTo_one, clip_of_mem, one]
  rw [one]
  exact ⟨by linarith, by linarith⟩

/-! ## Constants taken exactly -/

/-- The number that a reading stands for; zero if it is none. -/
def Reading.value : Reading → ℚ
  | .finite negative mantissa exponent =>
    if negative then -(mantissa * 2 ^ exponent) else mantissa * 2 ^ exponent
  | _ => 0

/-- The number that a numeral stands for. -/
def Numeral.value (numeral : Numeral) : ℚ :=
  if numeral.negative then -numeral.magnitude else numeral.magnitude

namespace Calculator

/-- The number that the text of a real number spells; zero if it spells none. -/
def spelledValue (value : Float) : ℚ :=
  let (negative, text) := splitSign (printReal value)
  (readNumeral? negative text).elim 0 Numeral.value

mutual

/-- An instruction with the numbers that the texts of its real numbers spell. -/
def Instruction.exactly : Instruction Float → Instruction ℚ
  | .integer value => .integer value
  | .real value => .real (spelledValue value)
  | .operator command => .operator command
  | .procedure body => .procedure (Instruction.allExactly body)

/-- Instructions with the numbers that the texts of their real numbers spell. -/
def Instruction.allExactly : List (Instruction Float) → List (Instruction ℚ)
  | [] => []
  | instruction :: rest => instruction.exactly :: Instruction.allExactly rest

end

end Calculator

namespace NumericFunction

/-- A number of single precision as the number that it is. -/
def exactNumber (value : Float32) : ℚ :=
  (Float32Scalar.read value).value

/-- Bounds as the numbers that they are. -/
def exactBounds (bounds : Bounds Float32) : Bounds ℚ :=
  ⟨bounds.domain.map exactNumber, bounds.range.map (·.map exactNumber)⟩

mutual

/-- A function in exact arithmetic: its numbers are those that they are, and the constants of its programs
those that their texts spell. -/
def exactly : NumericFunction Float32 Float → NumericFunction ℚ ℚ
  | sampled bounds table =>
    .sampled (exactBounds bounds)
      ⟨table.size, table.bits, table.encode.map exactNumber, table.decode.map exactNumber, table.samples⟩
  | exponential bounds start finish exponent =>
    .exponential (exactBounds bounds) (start.map exactNumber) (finish.map exactNumber)
      (exactNumber exponent)
  | stitched bounds parts limits encode =>
    .stitched (exactBounds bounds) (allExactly parts) (limits.map exactNumber) (encode.map exactNumber)
  | calculator bounds program =>
    .calculator (exactBounds bounds) (Calculator.Instruction.allExactly program)

/-- Functions in exact arithmetic. -/
def allExactly : List (NumericFunction Float32 Float) → List (NumericFunction ℚ ℚ)
  | [] => []
  | function :: rest => function.exactly :: allExactly rest

end

/-- A function without its range. -/
def withoutRange {Single Double : Type} : NumericFunction Single Double → NumericFunction Single Double
  | sampled bounds table => .sampled ⟨bounds.domain, none⟩ table
  | exponential bounds start finish exponent => .exponential ⟨bounds.domain, none⟩ start finish exponent
  | stitched bounds parts limits encode => .stitched ⟨bounds.domain, none⟩ parts limits encode
  | calculator bounds program => .calculator ⟨bounds.domain, none⟩ program

/-- Whether what is read from a function stored in a document has the outputs of the function, in single and
in double precision, and in exact arithmetic those of another function. -/
def KeepsOutputs [Analysis ℚ] (function : NumericFunction Float32 Float) (exact : NumericFunction ℚ ℚ)
    (document : Document) : Prop :=
  ∃ stored, read (function.toObject document).2 (function.toObject document).1 = .ok stored ∧
    (∀ inputs, stored.apply inputs = function.apply inputs) ∧
    (∀ inputs, stored.evaluate inputs = function.evaluate inputs) ∧
    ∀ inputs, stored.exactly.evaluate inputs = exact.evaluate inputs

/-- A function that survives being stored keeps its outputs. -/
theorem Survives.keepsOutputs [Analysis ℚ] {function : NumericFunction Float32 Float}
    {exact : NumericFunction ℚ ℚ} {document : Document} (survives : function.Survives document)
    (isExact : function.exactly = exact) : function.KeepsOutputs exact document :=
  ⟨function, survives, fun _ => rfl, fun _ => rfl, fun inputs => by rw [isExact]⟩

/-- The ends of a unit interval are exact. -/
theorem exactNumber_unit : exactNumber 0.0 = (0.0 : ℚ) ∧ exactNumber 1.0 = (1.0 : ℚ) := by
  have zero : Float32Scalar.read 0.0 = .finite false 0 (-149) := rfl
  have one : Float32Scalar.read 1.0 = .finite false (2 ^ 23) (-23) := rfl
  rw [exactNumber, exactNumber, zero, one]
  constructor <;> norm_num [Reading.value]

/-- The ends of unit intervals are exact. -/
theorem map_exactNumber_unitIntervals (count : Nat) :
    (unitIntervals count).map exactNumber = unitIntervals count := by
  induction count with
  | zero => rfl
  | succ count inductionHypothesis =>
      rw [unitIntervals_succ, List.map_cons, List.map_cons, inductionHypothesis, exactNumber_unit.1,
        exactNumber_unit.2, unitIntervals_succ]

/-- The weights are spelled exactly. -/
theorem spelledValue_weights :
    Calculator.spelledValue 0.3 = (0.3 : ℚ) ∧ Calculator.spelledValue 0.59 = (0.59 : ℚ) ∧
      Calculator.spelledValue 0.11 = (0.11 : ℚ) ∧ Calculator.spelledValue 1.0 = (1.0 : ℚ) := by
  have red : Calculator.printReal 0.3 = ['0', '.', '3'] := by decide +kernel
  have green : Calculator.printReal 0.59 = ['0', '.', '5', '9'] := by decide +kernel
  have blue : Calculator.printReal 0.11 = ['0', '.', '1', '1'] := by decide +kernel
  have full : Calculator.printReal 1.0 = ['1', '.', '0'] := by decide +kernel
  simp only [Calculator.spelledValue, red, green, blue, full]
  refine ⟨?_, ?_, ?_, ?_⟩
  · show (Numeral.mk false 3 (-1)).value = _
    norm_num [Numeral.value, Numeral.magnitude]
  · show (Numeral.mk false 59 (-2)).value = _
    norm_num [Numeral.value, Numeral.magnitude]
  · show (Numeral.mk false 11 (-2)).value = _
    norm_num [Numeral.value, Numeral.magnitude]
  · show (Numeral.mk false 10 (-1)).value = _
    norm_num [Numeral.value, Numeral.magnitude]

/-- The programs to gray are exactly those of exact arithmetic. -/
theorem exactly_rgbToGray : (rgbToGray : NumericFunction Float32 Float).exactly = rgbToGray := by
  obtain ⟨red, green, blue, -⟩ := spelledValue_weights
  simp only [rgbToGray, weighing, exactly, exactBounds, Option.map_some, map_exactNumber_unitIntervals,
    Calculator.Instruction.allExactly, Calculator.Instruction.exactly, red, green, blue]

/-- The programs to gray are exactly those of exact arithmetic. -/
theorem exactly_inksToGray : (inksToGray : NumericFunction Float32 Float).exactly = inksToGray := by
  obtain ⟨red, green, blue, full⟩ := spelledValue_weights
  simp only [inksToGray, exactly, exactBounds, Option.map_some, map_exactNumber_unitIntervals,
    Calculator.Instruction.allExactly, Calculator.Instruction.exactly, red, green, blue, full]

/-! ## Running the programs -/

section Programs

variable {Real : Type} [Scalar Real] [Analysis Real] (depth : Nat)

/-- The instructions that weigh three inks and add them to black. -/
def covering : Calculator.Program Real :=
  [.operator .exchange, .real 0.11, .operator .mul, .operator .add, .operator .exchange, .real 0.59,
    .operator .mul, .operator .add, .operator .exchange, .real 0.3, .operator .mul, .operator .add]

/-- The instructions that take the complement of a coverage, which ends at full coverage. -/
def complementing : Calculator.Program Real :=
  [.operator .duplicate, .real 1.0, .operator .atLeast, .procedure [.operator .discard, .real 1.0],
    .operator .when, .real 1.0, .operator .exchange, .operator .sub]

/-- Weighing leaves the weighted sum of three numbers. -/
theorem run_weighing (red green blue : Real) :
    Calculator.run (depth + 1) weighing [.real blue, .real green, .real red] =
      .ok [.real (blue * 0.11 + green * 0.59 + red * 0.3)] :=
  rfl

/-- The coverage is the weighted sum of the inks and black. -/
theorem run_covering (cyan magenta yellow black : Real) (rest : Calculator.Program Real) :
    Calculator.run (depth + 1) (covering ++ rest)
        [.real black, .real yellow, .real magenta, .real cyan] =
      Calculator.run (depth + 1) rest
        [.real (black + yellow * 0.11 + magenta * 0.59 + cyan * 0.3)] :=
  rfl

/-- The complement of a coverage.  The procedure, which is one level deeper, replaces a coverage that is at
least full. -/
theorem run_complementing (coverage : Real) :
    Calculator.run (depth + 2) complementing [.real coverage] =
      .ok [.real (1.0 - if Scalar.atMost 1.0 coverage then 1.0 else coverage)] := by
  have deeper (stack : Calculator.Stack Real) (rest : Calculator.Program Real) :
      Calculator.run (depth + 2) (.operator .when :: rest) stack =
        Calculator.apply (Calculator.run (depth + 1)) .when stack >>= Calculator.run (depth + 2) rest :=
    Calculator.run_cons_operator .when rest
  have compared : Calculator.run (depth + 2) complementing [.real coverage] =
      (if Scalar.atMost 1.0 coverage then
        Calculator.run (depth + 1) [.operator .discard, .real 1.0] [.real coverage]
      else .ok [.real coverage]) >>=
        Calculator.run (depth + 2) [.real 1.0, .operator .exchange, .operator .sub] :=
    deeper [.procedure [.operator .discard, .real 1.0], .boolean (Scalar.atMost 1.0 coverage),
      .real coverage] _
  rw [compared]
  split <;> rfl

end Programs

/-! ## The programs in exact arithmetic -/

section Exact

variable [Analysis ℚ]

/-- In exact arithmetic weighing computes the luminance. -/
theorem evaluate_weighing (red green blue : ℚ) :
    Calculator.evaluate weighing [red, green, blue] = .ok [luminance red green blue] := by
  have sameSum : blue * 0.11 + green * 0.59 + red * 0.3 = luminance red green blue := by
    rw [Exact.luminance_eq]
    norm_num
    ring
  rw [← sameSum]
  exact congrArg (· >>= fun stack => stack.reverse.mapM Calculator.Operand.number)
    (run_weighing (2 ^ 62 - 1) red green blue)

/-- In exact arithmetic the program for inks computes the complement of their coverage, up to full
coverage. -/
theorem evaluate_covering (cyan magenta yellow black : ℚ) :
    Calculator.evaluate (covering ++ complementing) [cyan, magenta, yellow, black] =
      .ok [1 - min 1 (luminance cyan magenta yellow + black)] := by
  have sameSum : black + yellow * 0.11 + magenta * 0.59 + cyan * 0.3 =
      luminance cyan magenta yellow + black := by
    rw [Exact.luminance_eq]
    norm_num
    ring
  have ends (coverage : ℚ) : (1.0 - if Scalar.atMost 1.0 coverage then 1.0 else coverage) =
      1 - min 1 coverage := by
    have one : (1.0 : ℚ) = 1 := by norm_num
    show (1.0 - if decide ((1.0 : ℚ) ≤ coverage) = true then 1.0 else coverage) = _
    simp only [one, decide_eq_true_eq, min_def]
  rw [← ends, ← sameSum]
  exact congrArg (· >>= fun stack => stack.reverse.mapM Calculator.Operand.number)
    ((run_covering (2 ^ 62 - 1) cyan magenta yellow black complementing).trans
      (run_complementing (2 ^ 62 - 2) _))

/-- A program with unit intervals as its domain and range, in exact arithmetic. -/
theorem evaluate_unitIntervals {program : Calculator.Program ℚ} {inputs : List ℚ} {output : ℚ}
    {count : Nat} (isCount : inputs.length = count) (within : output ∈ Set.Icc (0 : ℚ) 1)
    (ran : Calculator.evaluate program (inputs.map (Scalar.clip 0.0 1.0)) = .ok [output]) :
    (calculator ⟨unitIntervals count, some (unitIntervals 1)⟩ program :
        NumericFunction ℚ ℚ).evaluate inputs = .ok [output] ∧
      (calculator ⟨unitIntervals count, none⟩ program : NumericFunction ℚ ℚ).evaluate inputs =
        .ok [output] := by
  have widened (ends : List ℚ) : ends.map Precision.widen = ends := List.map_id ends
  have clipped : clipInputs (unitIntervals count) inputs = .ok (inputs.map (Scalar.clip 0.0 1.0)) :=
    isCount ▸ clipInputs_unitIntervals inputs
  constructor
  · rw [evaluate, widened, clipped, Limited.ok_bind, ran, Limited.ok_bind, Option.map_some, widened]
    exact congrArg (fun level => Except.ok [level]) (Exact.clip_of_mem within)
  · rw [evaluate, widened, clipped, Limited.ok_bind, ran, Limited.ok_bind]
    rfl

/-- In exact arithmetic the program for red, green and blue has their luminance as its output, each moved
into the unit interval, with its range and without. -/
theorem evaluate_rgbToGray (red green blue : ℚ) :
    (rgbToGray : NumericFunction ℚ ℚ).evaluate [red, green, blue] =
        .ok [luminance (Scalar.clip 0.0 1.0 red) (Scalar.clip 0.0 1.0 green)
          (Scalar.clip 0.0 1.0 blue)] ∧
      (rgbToGray : NumericFunction ℚ ℚ).withoutRange.evaluate [red, green, blue] =
        .ok [luminance (Scalar.clip 0.0 1.0 red) (Scalar.clip 0.0 1.0 green)
          (Scalar.clip 0.0 1.0 blue)] :=
  evaluate_unitIntervals rfl
    (Exact.luminance_mem (Exact.clip_mem _) (Exact.clip_mem _) (Exact.clip_mem _))
    (evaluate_weighing _ _ _)

/-- In exact arithmetic the program for inks has their level as its output, each moved into the unit
interval, with its range and without. -/
theorem evaluate_inksToGray (cyan magenta yellow black : ℚ) :
    (inksToGray : NumericFunction ℚ ℚ).evaluate [cyan, magenta, yellow, black] =
        .ok [inkLuminance (Scalar.clip 0.0 1.0 cyan) (Scalar.clip 0.0 1.0 magenta)
          (Scalar.clip 0.0 1.0 yellow) (Scalar.clip 0.0 1.0 black)] ∧
      (inksToGray : NumericFunction ℚ ℚ).withoutRange.evaluate [cyan, magenta, yellow, black] =
        .ok [inkLuminance (Scalar.clip 0.0 1.0 cyan) (Scalar.clip 0.0 1.0 magenta)
          (Scalar.clip 0.0 1.0 yellow) (Scalar.clip 0.0 1.0 black)] := by
  have isLevel := Exact.inkLuminance_eq (Exact.clip_mem cyan) (Exact.clip_mem magenta)
    (Exact.clip_mem yellow) (Exact.clip_mem black)
  have ran := evaluate_covering (Scalar.clip 0.0 1.0 cyan) (Scalar.clip 0.0 1.0 magenta)
    (Scalar.clip 0.0 1.0 yellow) (Scalar.clip 0.0 1.0 black)
  rw [← isLevel] at ran
  exact evaluate_unitIntervals rfl (Exact.clip_mem _) ran

/-- In exact arithmetic the programs to gray have one output each: the luminance of red, green and blue, and
the level of inks, which is zero from full coverage on and the complement of the coverage up to it.  Every
input is moved into the unit interval before, and moving the output there changes nothing.  What is read from
the stored programs has the same outputs. -/
theorem evaluates_luminance :
    (∀ red green blue : ℚ,
      (rgbToGray : NumericFunction ℚ ℚ).evaluate [red, green, blue] =
        .ok [luminance (Scalar.clip 0.0 1.0 red) (Scalar.clip 0.0 1.0 green)
          (Scalar.clip 0.0 1.0 blue)] ∧
      (rgbToGray : NumericFunction ℚ ℚ).withoutRange.evaluate [red, green, blue] =
        (rgbToGray : NumericFunction ℚ ℚ).evaluate [red, green, blue]) ∧
    (∀ cyan magenta yellow black : ℚ,
      (inksToGray : NumericFunction ℚ ℚ).evaluate [cyan, magenta, yellow, black] =
        .ok [inkLuminance (Scalar.clip 0.0 1.0 cyan) (Scalar.clip 0.0 1.0 magenta)
          (Scalar.clip 0.0 1.0 yellow) (Scalar.clip 0.0 1.0 black)] ∧
      (inksToGray : NumericFunction ℚ ℚ).withoutRange.evaluate [cyan, magenta, yellow, black] =
        (inksToGray : NumericFunction ℚ ℚ).evaluate [cyan, magenta, yellow, black]) ∧
    (∀ cyan ∈ Set.Icc (0 : ℚ) 1, ∀ magenta ∈ Set.Icc (0 : ℚ) 1, ∀ yellow ∈ Set.Icc (0 : ℚ) 1,
      ∀ black ∈ Set.Icc (0 : ℚ) 1,
        (1 ≤ luminance cyan magenta yellow + black →
          (inksToGray : NumericFunction ℚ ℚ).evaluate [cyan, magenta, yellow, black] = .ok [0]) ∧
        (luminance cyan magenta yellow + black ≤ 1 →
          (inksToGray : NumericFunction ℚ ℚ).evaluate [cyan, magenta, yellow, black] =
            .ok [1 - (luminance cyan magenta yellow + black)])) ∧
    ∀ document : Document, document.IsNumbered →
      rgbToGray.KeepsOutputs rgbToGray document ∧ inksToGray.KeepsOutputs inksToGray document := by
  refine ⟨fun red green blue => ?_, fun cyan magenta yellow black => ?_,
    fun cyan isCyan magenta isMagenta yellow isYellow black isBlack => ?_, fun document isNumbered => ?_⟩
  · obtain ⟨level, unranged⟩ := evaluate_rgbToGray red green blue
    exact ⟨level, unranged.trans level.symm⟩
  · obtain ⟨level, unranged⟩ := evaluate_inksToGray cyan magenta yellow black
    exact ⟨level, unranged.trans level.symm⟩
  · obtain ⟨level, -⟩ := evaluate_inksToGray cyan magenta yellow black
    rw [Exact.clip_of_mem isCyan, Exact.clip_of_mem isMagenta, Exact.clip_of_mem isYellow,
      Exact.clip_of_mem isBlack, Exact.inkLuminance_eq isCyan isMagenta isYellow isBlack] at level
    constructor
    · intro full
      rw [level, min_eq_left full, sub_self]
    · intro partly
      rw [level, min_eq_right partly]
  · exact ⟨(ColorSpace.isTold_rgbToGray.survives isNumbered).keepsOutputs exactly_rgbToGray,
      (ColorSpace.isTold_inksToGray.survives isNumbered).keepsOutputs exactly_inksToGray⟩

omit [Analysis ℚ] in
/-- Colors outside of the unit interval, and inks beyond full coverage; the programs are stored in a document
that has a program already.  Roots and sines do not matter, so any functions stand for them. -/
theorem evaluates_luminance_outside :
    ∃ _ : Analysis ℚ,
      (rgbToGray : NumericFunction ℚ ℚ).evaluate [2, 1 / 2, -1] = .ok [119 / 200] ∧
      (inksToGray : NumericFunction ℚ ℚ).evaluate [1, 1, 0, 1 / 2] = .ok [0] ∧
      (inksToGray : NumericFunction ℚ ℚ).evaluate [1, 0, 0, 1 / 2] = .ok [1 / 5] ∧
      ColorSpace.weighed.IsNumbered ∧
      rgbToGray.KeepsOutputs rgbToGray ColorSpace.weighed ∧
      inksToGray.KeepsOutputs inksToGray ColorSpace.weighed := by
  have analysis : Analysis ℚ := ⟨id, fun base _ => base, id, id, id, id, fun ordinate _ => ordinate, 3⟩
  refine ⟨analysis, ?_⟩
  have zero : (0 : ℚ) ∈ Set.Icc 0 1 := Set.left_mem_Icc.2 zero_le_one
  have half : (1 / 2 : ℚ) ∈ Set.Icc 0 1 := ⟨by norm_num, by norm_num⟩
  have one : (1 : ℚ) ∈ Set.Icc 0 1 := Set.right_mem_Icc.2 zero_le_one
  have isNumbered : ColorSpace.weighed.IsNumbered := Document.isNumbered_ofObjects _ _
  obtain ⟨colors, -, sides, keeps⟩ := evaluates_luminance
  refine ⟨?_, (sides 1 one 1 one 0 zero (1 / 2) half).1 ?_, ?_, isNumbered, keeps _ isNumbered⟩
  · rw [(colors 2 (1 / 2) (-1)).1, Exact.clip_unit, Exact.clip_unit, Exact.clip_unit, Exact.luminance_eq]
    norm_num
  · rw [Exact.luminance_eq]
    norm_num
  · rw [(sides 1 one 0 zero 0 zero (1 / 2) half).2 (by rw [Exact.luminance_eq]; norm_num),
      Exact.luminance_eq]
    norm_num

end Exact

end NumericFunction
end Monochrome
