import Monochrome.NumericFunction.Evaluate
import Monochrome.NumericFunction.Gray
import Monochrome.Proofs.Binary.Single
import Monochrome.Proofs.Limits

/-!
# Functions through samples

The position of an input on a grid is moved between the first grid point and the last one, so the
two grid points around it have samples.  A function through samples has a value for every input.
-/

namespace Monochrome

open Limited

/-! ## Positions on a grid -/

/-- No value is less than itself. -/
theorem less_self (value : Float32) : Scalar.less value value = false := by
  rw [less_eq]
  generalize value.toModel.unpack = number
  cases number with
  | notANumber => rfl
  | infinity sign => cases sign <;> rfl
  | zero sign => cases sign <;> rfl
  | finite sign mantissa exponent positive =>
      have same : (compare exponent exponent).then (compare mantissa mantissa) = .eq := by simp
      cases sign with
      | negative =>
          show (some ((compare exponent exponent).then (compare mantissa mantissa)).swap ==
            some Ordering.lt) = false
          rw [same]
          rfl
      | positive =>
          show (some ((compare exponent exponent).then (compare mantissa mantissa)) ==
            some Ordering.lt) = false
          rw [same]
          rfl

/-- A value that was moved into an interval is not below it, and not above it. -/
theorem less_clip {low high : Float32} (inOrder : Scalar.less high low = false) (value : Float32) :
    Scalar.less (Scalar.clip low high value) low = false ∧
      Scalar.less high (Scalar.clip low high value) = false := by
  rw [Scalar.clip]
  split
  next => exact ⟨less_self low, inOrder⟩
  next notBelow =>
    split
    next => exact ⟨inOrder, less_self high⟩
    next notAbove => exact ⟨Bool.eq_false_iff.mpr notBelow, Bool.eq_false_iff.mpr notAbove⟩

/-- A natural number is not below zero. -/
theorem less_ofNat_zero (number : Nat) (short : number < 2 ^ 24) (nonzero : number ≠ 0) :
    Scalar.less (Scalar.ofNat number : Float32) 0.0 = false := by
  obtain ⟨mantissa, isRead, normal, -⟩ :=
    Float32Scalar.read_ofNat_of_holds (Float32Scalar.holds_of_lt short) nonzero
  have zero : (0.0 : Float32).toModel.unpack = .zero .positive := rfl
  rw [less_eq, Float32Scalar.unpack_toModel, isRead, Reading.unpacked_finite _ _ (by omega), zero]
  rfl

namespace SampleTable

variable {table : SampleTable Float32}

/-- The grid points around a position that was moved onto the grid are on it. -/
theorem Axis.lower_le {size : Nat} (several : 1 < size) (short : size ≤ 2 ^ 24) (position : Float32) :
    (Axis.lower ⟨size, Scalar.clip 0.0 (Scalar.ofNat (size - 1)) position⟩) ≤ size - 1 := by
  have inside := less_clip (less_ofNat_zero (size - 1) (by omega) (by omega)) position
  exact Float32Scalar.toNat_round_down_le (by omega) (by omega) inside.1 inside.2

/-! ## Samples of grid points -/

/-- A grid point with a sample of one byte has a value. -/
theorem exists_sampleAt (index : Nat) (isByte : table.bits = 8)
    (within : index < table.samples.length) : ∃ sample, table.sampleAt index = .ok sample := by
  rw [sampleAt, isByte, if_neg]
  · exact ⟨_, rfl⟩
  · show ¬table.samples.length < (index * 8 + 8 + 7) / 8
    omega

/-- Adding the sample of a grid point to one output gives one output. -/
theorem exists_addCorner {corner : Corner Float32} (isByte : table.bits = 8)
    (single : table.outputCount = 1) (within : corner.offset < table.samples.length)
    (output : Float32) : ∃ sum, table.addCorner [output] corner = .ok [sum] := by
  rw [addCorner]
  split
  · exact ⟨output, rfl⟩
  · obtain ⟨sample, isSample⟩ := exists_sampleAt (corner.offset * 1 + 0) isByte (by omega)
    rw [single]
    show ∃ sum, ([(output, 0)].mapM fun (output, index) => do
      let sample ← table.sampleAt (corner.offset * 1 + index)
      return output + corner.weight * Scalar.ofNat sample) = .ok [sum]
    simp only [List.mapM_cons, List.mapM_nil, isSample, ok_bind, pure, Except.pure]
    exact ⟨_, rfl⟩

/-- Adding the samples of grid points to one output gives one output. -/
theorem exists_foldlM_addCorner {corners : List (Corner Float32)} (isByte : table.bits = 8)
    (single : table.outputCount = 1)
    (within : ∀ corner ∈ corners, corner.offset < table.samples.length) (output : Float32) :
    ∃ sum, corners.foldlM table.addCorner [output] = .ok [sum] := by
  induction corners generalizing output with
  | nil => exact ⟨output, rfl⟩
  | cons corner rest inductionHypothesis =>
      obtain ⟨sum, isSum⟩ := exists_addCorner isByte single (within corner List.mem_cons_self) output
      rw [List.foldlM_cons, isSum]
      exact inductionHypothesis (fun other among => within other (List.mem_cons_of_mem _ among)) sum

/-- Samples of one byte along one dimension have a weighted sum at every position. -/
theorem exists_weightedSums {size : Nat} {low high position : Float32}
    {interval : Float32 × Float32} (isByte : table.bits = 8) (single : table.outputCount = 1)
    (line : table.size = [size]) (encoded : table.encode = [low, high])
    (several : 1 < size) (short : size ≤ 2 ^ 24) (full : size ≤ table.samples.length) :
    ∃ sum, table.weightedSums [interval] [position] = .ok [sum] := by
  rw [weightedSums, if_neg (by simp [line, encoded])]
  simp only [axes, line, encoded, pairs, List.zip_cons_cons, List.zipWith_cons_cons, List.zip_nil_right,
    List.zipWith_nil_right, corners, cornersFrom, List.map_cons, List.map_nil,
    List.cons_append, List.nil_append, single, List.replicate_succ, List.replicate_zero]
  generalize Scalar.interpolate position interval.1 interval.2 low high = moved
  have atLower := Axis.lower_le several short moved
  generalize isAxis : (⟨size, _⟩ : Axis Float32) = axis at atLower ⊢
  have isSize : axis.size = size := isAxis ▸ rfl
  refine exists_foldlM_addCorner isByte single ?_ _
  simp only [List.mem_cons, List.not_mem_nil, or_false, forall_eq_or_imp, forall_eq, Corner.move,
    Axis.upper]
  omega

end SampleTable

namespace NumericFunction

variable (values : List Float32)

/-- A function through samples has a value for every input. -/
theorem exists_apply_throughSamples (several : 1 < values.length)
    (short : values.length ≤ 2 ^ 24) (input : Float32) :
    ∃ output, (throughSamples values 1 : NumericFunction Float32 Float).apply [input] =
      .ok [output] := by
  have isSize : max (values.length / max 1 1) 1 = values.length := by simp; omega
  have inDomain : clipInputs (unitIntervals 1) [input] = .ok [Scalar.clip 0.0 1.0 input] := rfl
  rw [throughSamples, apply, inDomain, ok_bind]
  simp only [isSize]
  obtain ⟨table, isTable⟩ : ∃ table : SampleTable Float32, table =
      ⟨[values.length], 8, [0.0, Scalar.ofNat (values.length - 1)], [0.0, 1.0],
        values.map Scalar.levelByte⟩ := ⟨_, rfl⟩
  have unit : (unitIntervals (max 1 1) : List Float32) = [0.0, 1.0] := rfl
  obtain ⟨sum, isSum⟩ :
      ∃ sum, table.weightedSums [(0.0, 1.0)] [Scalar.clip 0.0 1.0 input] = .ok [sum] :=
    SampleTable.exists_weightedSums (by rw [isTable]) (by simp [isTable, SampleTable.outputCount])
      (by rw [isTable]) (by rw [isTable]) several short (by simp [isTable])
  rw [unit, ← isTable, SampleTable.evaluate]
  show ∃ output, (((table.weightedSums [(0.0, 1.0)] [Scalar.clip 0.0 1.0 input]) >>= _) >>= _) = _
  rw [isSum, ok_bind, isTable]
  exact ⟨_, rfl⟩

end NumericFunction
end Monochrome
