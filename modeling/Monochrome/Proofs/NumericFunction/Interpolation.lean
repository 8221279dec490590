import Monochrome.Proofs.Image.Pixels
import Monochrome.Proofs.NumericFunction.Multilinear

/-!
# Sampled functions in exact arithmetic

A sample is the number that its bits spell, among those of the whole table.  With samples for every point of
the grid the value of a sampled function never fails: before they are mapped to their intervals, its outputs
are the multilinear interpolation of the samples around the encoded point.  So they lie between the least and
the greatest of these samples, and at a grid point they are the samples there.
-/

namespace Monochrome

open Limited

namespace Limited

/-- Reading that succeeds for every element of a list. -/
theorem mapM_eq_map {ε α β : Type} {read : α → Except ε β} {value : α → β} {list : List α}
    (reads : ∀ element ∈ list, read element = .ok (value element)) :
    list.mapM read = .ok (list.map value) := by
  induction list with
  | nil => rfl
  | cons element list inductionHypothesis =>
      obtain ⟨first, rest⟩ := List.forall_mem_cons.1 reads
      rw [List.mapM_cons, first, ok_bind, inductionHypothesis rest]
      rfl

end Limited

/-! ## Bits of samples -/

namespace Bits

/-- Bytes spell the number that their bits spell. -/
theorem valueHigh_ofBytesHigh (bytes : Bytes) : valueHigh (ofBytesHigh bytes) = Bytes.bigEndian bytes := by
  induction bytes using List.reverseRecOn with
  | nil => rfl
  | append_singleton bytes byte inductionHypothesis =>
      have last : ofBytesHigh [byte] = highFirst 8 byte.toNat := List.flatMap_singleton _ _
      rw [ofBytesHigh_append, valueHigh_append, inductionHypothesis, last, length_highFirst,
        SampleImage.valueHigh_highFirst, Nat.mod_eq_of_lt byte.toNat_lt, Nat.mul_comm]
      simp only [Bytes.bigEndian, List.foldl_append, List.foldl_cons, List.foldl_nil, Nat.reducePow]

/-- The bits of the first bytes. -/
theorem take_ofBytesHigh {bytes : Bytes} {count : Nat} (inside : count ≤ bytes.length) :
    (ofBytesHigh bytes).take (8 * count) = ofBytesHigh (bytes.take count) := by
  have split := ofBytesHigh_append (bytes.take count) (bytes.drop count)
  rw [List.take_append_drop] at split
  rw [split, List.take_left' (by rw [length_ofBytesHigh, List.length_take_of_le inside])]

/-- Some bits among others, in the number that all of them spell. -/
theorem valueHigh_take_drop {bits : Bits} {start width : Nat} (inside : start + width ≤ bits.length) :
    valueHigh ((bits.drop start).take width) =
      valueHigh bits / 2 ^ (bits.length - (start + width)) % 2 ^ width := by
  have lengthMiddle : ((bits.drop start).take width).length = width := by
    rw [List.length_take_of_le (by rw [List.length_drop]; omega)]
  have lengthAfter : (bits.drop (start + width)).length = bits.length - (start + width) := List.length_drop
  have isUpper : valueHigh bits / 2 ^ (bits.length - (start + width)) =
      valueHigh (bits.take (start + width)) := by
    rw [← lengthAfter, ← congrArg valueHigh (List.take_append_drop (start + width) bits), valueHigh_append,
      Nat.mul_comm, Nat.mul_add_div (Nat.two_pow_pos _),
      Nat.div_eq_of_lt (valueHigh_lt _), Nat.add_zero]
  have isLower := valueHigh_lt ((bits.drop start).take width)
  rw [lengthMiddle] at isLower
  rw [isUpper, List.take_add, valueHigh_append, lengthMiddle, Nat.mul_comm, Nat.mul_add_mod,
    Nat.mod_eq_of_lt isLower]

/-- Some bits of bytes, in the number that the bytes spell in which they stand. -/
theorem valueHigh_ofBytesHigh_take_drop (bytes : Bytes) (start width last : Nat)
    (inside : last ≤ bytes.length) (short : start + width ≤ 8 * last) :
    valueHigh (((ofBytesHigh bytes).drop start).take width) =
      Bytes.bigEndian ((bytes.drop (start / 8)).take (last - start / 8)) /
        2 ^ (8 * last - (start + width)) % 2 ^ width := by
  have whole : last - start / 8 ≤ (bytes.drop (start / 8)).length := by
    rw [List.length_drop]
    omega
  have lengthBits : (ofBytesHigh ((bytes.drop (start / 8)).take (last - start / 8))).length =
      8 * (last - start / 8) := by
    rw [length_ofBytesHigh, List.length_take_of_le whole]
  have places : 8 * (last - start / 8) - (start % 8 + width) = 8 * last - (start + width) := by omega
  calc valueHigh (((ofBytesHigh bytes).drop start).take width)
      = valueHigh (((ofBytesHigh ((bytes.drop (start / 8)).take (last - start / 8))).drop
          (start % 8)).take width) := by
        rw [← take_ofBytesHigh whole, ← SampleImage.drop_ofBytesHigh, List.drop_take, List.drop_drop,
          Nat.div_add_mod, List.take_take, Nat.min_eq_left (by omega)]
    _ = _ := by
        rw [valueHigh_take_drop (by omega), lengthBits, valueHigh_ofBytesHigh, places]

end Bits

namespace SampleTable

/-- The number that the bits of a sample spell, the most significant first. -/
def sampleNumber {Single : Type} (table : SampleTable Single) (index : Nat) : Nat :=
  Bits.valueHigh
    (((Bits.ofBytesHigh table.samples).drop (index * table.bits.toNat)).take table.bits.toNat)

/-- A sample of at most 32 bits is the number that they spell, if there are as many bits. -/
theorem sampleAt_eq_ok {Single : Type} [Scalar Single] {table : SampleTable Single} {index : Nat}
    (fewBits : table.bits.toNat ≤ 32)
    (inside : index * table.bits.toNat + table.bits.toNat ≤ 8 * table.samples.length) :
    table.sampleAt index = .ok (table.sampleNumber index) := by
  have isNumber := Bits.valueHigh_ofBytesHigh_take_drop table.samples (index * table.bits.toNat)
    table.bits.toNat ((index * table.bits.toNat + table.bits.toNat + 7) / 8) (by omega) (by omega)
  have small : table.sampleNumber index < 2 ^ 32 := by
    rw [sampleNumber, isNumber]
    exact (Nat.mod_lt _ (Nat.two_pow_pos _)).trans_le (Nat.pow_le_pow_right two_pos fewBits)
  rw [sampleAt, if_neg (by omega)]
  show Except.ok (_ / _ % _ % _) = _
  rw [← isNumber]
  exact congrArg Except.ok (Nat.mod_eq_of_lt small)

variable {table : SampleTable ℚ} {domain : List (ℚ × ℚ)} {inputs : List ℚ}

/-! ## Sums over corners -/

/-- Whether a corner has a sample for every output. -/
def HasSamples (table : SampleTable ℚ) (corner : Corner ℚ) : Prop :=
  ∀ output < table.outputCount, table.sampleAt (corner.offset * table.outputCount + output) =
    .ok (table.sampleNumber (corner.offset * table.outputCount + output))

/-- The weighed sample of an output at a corner. -/
def weighedSample (table : SampleTable ℚ) (output : Nat) (corner : Corner ℚ) : ℚ :=
  corner.weight * (table.sampleNumber (corner.offset * table.outputCount + output) : ℚ)

/-- Adding the weighed samples of a corner to the outputs. -/
theorem addCorner_eq {corner : Corner ℚ} (hasSamples : table.HasSamples corner) (sums : Nat → ℚ) :
    table.addCorner ((List.range table.outputCount).map sums) corner =
      .ok ((List.range table.outputCount).map fun output =>
        sums output + table.weighedSample output corner) := by
  have zero : (0.0 : ℚ) = 0 := by norm_num
  by_cases weightless : corner.weight = 0.0
  · rw [addCorner, if_pos (show Scalar.same corner.weight 0.0 = true from decide_eq_true weightless)]
    simp only [weighedSample, weightless, zero, zero_mul, add_zero]
  · have numbered : ((List.range table.outputCount).map sums).zipIdx =
        (List.range table.outputCount).map fun output => (sums output, output) :=
      List.ext_getElem (by simp) fun output _ _ => by simp
    rw [addCorner, if_neg (show ¬Scalar.same corner.weight 0.0 = true from mt of_decide_eq_true weightless),
      numbered, List.mapM_map]
    refine mapM_eq_map fun output among => ?_
    show table.sampleAt _ >>= _ = _
    rw [hasSamples output (List.mem_range.1 among)]
    rfl

/-- Adding the weighed samples of corners to the outputs. -/
theorem foldlM_addCorner {corners : List (Corner ℚ)}
    (haveSamples : ∀ corner ∈ corners, table.HasSamples corner) (sums : Nat → ℚ) :
    corners.foldlM table.addCorner ((List.range table.outputCount).map sums) =
      .ok ((List.range table.outputCount).map fun output =>
        sums output + (corners.map (table.weighedSample output)).sum) := by
  induction corners generalizing sums with
  | nil => simp [pure, Except.pure]
  | cons corner corners inductionHypothesis =>
      obtain ⟨first, rest⟩ := List.forall_mem_cons.1 haveSamples
      rw [List.foldlM_cons, addCorner_eq first, ok_bind, inductionHypothesis rest]
      simp only [List.map_cons, List.sum_cons, add_assoc]

/-! ## Encoded points -/

/-- Moving a position between the first grid point and the last one. -/
theorem clip_grid (size : Nat) (position : ℚ) :
    Scalar.clip 0.0 (Scalar.ofNat (size - 1)) position = max 0 (min ((size - 1 : Nat) : ℚ) position) := by
  have zero : (0.0 : ℚ) = 0 := by norm_num
  have last : (Scalar.ofNat (size - 1) : ℚ) = ((size - 1 : Nat) : ℚ) := rfl
  rw [zero, last, Exact.clip_eq (Nat.cast_nonneg _)]

/-- Mapping a number from one interval to another along a straight line. -/
theorem interpolate_eq (value low high newLow newHigh : ℚ) :
    Scalar.interpolate value low high newLow newHigh = if |high - low| < Scalar.epsilon then newLow
      else newLow + (value - low) * (newHigh - newLow) / (high - low) := by
  show (if decide (|high - low| < Scalar.epsilon) = true then newLow else _) = _
  simp only [decide_eq_true_eq]

/-! ## Tables with enough samples -/

/-- Whether a table has all that a number of inputs needs: sizes, which are machine words, intervals of grid
positions, and samples of up to 32 bits at every grid point. -/
structure IsFull (table : SampleTable ℚ) (inputCount : Nat) : Prop where
  enoughSizes : inputCount ≤ table.size.length
  enoughIntervals : 2 * inputCount ≤ table.encode.length
  positive : ∀ size ∈ table.size.take inputCount, 1 ≤ size
  areWords : ∀ size ∈ table.size.take inputCount, size ≤ 2 ^ 64
  fewBits : table.bits.toNat ≤ 32
  enoughSamples : (table.size.take inputCount).prod * table.outputCount * table.bits.toNat ≤
    8 * table.samples.length

/-- The point of the grid onto which inputs are mapped. -/
def encodedPoint (table : SampleTable ℚ) (domain : List (ℚ × ℚ)) (inputs : List ℚ) : List ℚ :=
  (table.axes domain inputs).map Axis.position

/-- The sample of an output at a grid point.  The samples at a point follow each other. -/
def storedAt (table : SampleTable ℚ) (output : Nat) (point : List Nat) : ℚ :=
  table.sampleNumber (gridNumber table.size point * table.outputCount + output)

/-- The outputs, before they are mapped to their intervals, as interpolated samples. -/
def interpolated (table : SampleTable ℚ) (domain : List (ℚ × ℚ)) (inputs : List ℚ) : List ℚ :=
  (List.range table.outputCount).map fun output =>
    multilinear (table.encodedPoint domain inputs) (table.storedAt output)

/-- Whether a sampled function interpolates between the samples of its table. -/
structure Interpolates (table : SampleTable ℚ) (domain : List (ℚ × ℚ)) (inputs : List ℚ) : Prop where
  hasDimensions : (table.encodedPoint domain inputs).length = inputs.length
  /-- Each input is mapped onto its dimension along a straight line, and moved between the first grid point
  and the last one; an interval that is too narrow is mapped to the start. -/
  encodes (dimension : Nat) (input low high newLow newHigh : ℚ) (size : Nat)
    (isInput : inputs[dimension]? = some input) (isInterval : domain[dimension]? = some (low, high))
    (isStart : table.encode[2 * dimension]? = some newLow)
    (isEnd : table.encode[2 * dimension + 1]? = some newHigh)
    (isSize : table.size[dimension]? = some size) :
    (table.encodedPoint domain inputs)[dimension]? = some (max 0 (min ((size - 1 : Nat) : ℚ)
      (if |high - low| < Scalar.epsilon then newLow
      else newLow + (input - low) * (newHigh - newLow) / (high - low))))
  /-- No corner has a negative weight, and the weights add up to one. -/
  nonnegative : ∀ corner ∈ corners (table.axes domain inputs), 0 ≤ corner.weight
  addUp : ((corners (table.axes domain inputs)).map Corner.weight).sum = 1
  /-- The weighted sums are the samples, interpolated. -/
  sums : table.weightedSums domain inputs = .ok (table.interpolated domain inputs)
  /-- The outputs are the sums, mapped to their intervals. -/
  outputs : table.evaluate domain inputs = .ok (List.zipWith
    (fun sum (low, high) => Scalar.interpolate sum 0.0 table.maxSample low high)
    (table.interpolated domain inputs) (pairs table.decode))
  /-- The points around the encoded point are points of the grid. -/
  onGrid : ∀ point ∈ around (table.encodedPoint domain inputs),
    List.Forall₂ (· < ·) point (table.size.take inputs.length)
  /-- The interpolated samples of an output are between the least and the greatest sample around. -/
  between (output : Nat) : ∃ least ∈ around (table.encodedPoint domain inputs),
    ∃ greatest ∈ around (table.encodedPoint domain inputs),
      (∀ point ∈ around (table.encodedPoint domain inputs),
        table.storedAt output least ≤ table.storedAt output point ∧
          table.storedAt output point ≤ table.storedAt output greatest) ∧
      table.storedAt output least ≤
        multilinear (table.encodedPoint domain inputs) (table.storedAt output) ∧
      multilinear (table.encodedPoint domain inputs) (table.storedAt output) ≤
        table.storedAt output greatest
  /-- At a grid point the interpolated sample is the one that is stored there. -/
  atPoints (point : List Nat)
    (isPoint : table.encodedPoint domain inputs = point.map fun index : Nat => (index : ℚ))
    (output : Nat) : multilinear (table.encodedPoint domain inputs) (table.storedAt output) =
      table.storedAt output point

/-- The encoded point along a dimension. -/
theorem getElem?_encodedPoint {dimension size : Nat} {input low high newLow newHigh : ℚ}
    (isInput : inputs[dimension]? = some input) (isInterval : domain[dimension]? = some (low, high))
    (isStart : table.encode[2 * dimension]? = some newLow)
    (isEnd : table.encode[2 * dimension + 1]? = some newHigh)
    (isSize : table.size[dimension]? = some size) :
    (table.encodedPoint domain inputs)[dimension]? = some (max 0 (min ((size - 1 : Nat) : ℚ)
      (if |high - low| < Scalar.epsilon then newLow
      else newLow + (input - low) * (newHigh - newLow) / (high - low)))) := by
  have isPair := SampleImage.getElem?_pairs_eq_some isStart isEnd
  have isJoined : (inputs.zip domain)[dimension]? = some (input, low, high) :=
    List.getElem?_zip_eq_some.2 ⟨isInput, isInterval⟩
  rw [encodedPoint, List.getElem?_map, axes, List.getElem?_zipWith, List.getElem?_zipWith, isJoined, isPair,
    isSize]
  show some (Scalar.clip 0.0 (Scalar.ofNat (size - 1)) (Scalar.interpolate input low high newLow newHigh)) = _
  rw [clip_grid, interpolate_eq]

namespace IsFull

/-- There is an axis for each input. -/
theorem length_axes (isFull : table.IsFull inputs.length) (inDomain : inputs.length ≤ domain.length) :
    (table.axes domain inputs).length = inputs.length := by
  have enoughSizes := isFull.enoughSizes
  have enoughIntervals := isFull.enoughIntervals
  simp only [axes, List.length_zipWith, List.length_zip, SampleImage.length_pairs]
  omega

/-- The axes have the sizes of the table. -/
theorem map_size_axes (isFull : table.IsFull inputs.length) (inDomain : inputs.length ≤ domain.length) :
    (table.axes domain inputs).map Axis.size = table.size.take inputs.length := by
  have enoughSizes := isFull.enoughSizes
  refine List.ext_getElem ?_ fun dimension _ _ => ?_
  · rw [List.length_map, isFull.length_axes inDomain, List.length_take_of_le enoughSizes]
  · simp [axes]

/-- Every encoded input is on its axis. -/
theorem fit (isFull : table.IsFull inputs.length) (inDomain : inputs.length ≤ domain.length) :
    ∀ axis ∈ table.axes domain inputs, axis.Fits := by
  intro axis isAxis
  have isSize : axis.size ∈ table.size.take inputs.length := by
    rw [← isFull.map_size_axes inDomain]
    exact List.mem_map_of_mem isAxis
  have isPosition : ∃ moved : ℚ, axis.position = Scalar.clip 0.0 (Scalar.ofNat (axis.size - 1)) moved := by
    obtain ⟨dimension, inside, rfl⟩ := List.mem_iff_getElem.1 isAxis
    exact ⟨_, by simp only [axes, List.getElem_zipWith]; rfl⟩
  obtain ⟨moved, isPosition⟩ := isPosition
  rw [clip_grid] at isPosition
  have last : (0 : ℚ) ≤ (axis.size - 1 : Nat) := Nat.cast_nonneg _
  refine ⟨isFull.positive _ isSize, isFull.areWords _ isSize, ?_, ?_⟩
  · rw [isPosition]
    exact le_max_left _ _
  · rw [isPosition]
    exact max_le last (min_le_left _ _)

/-- Every corner of a cell has samples. -/
theorem haveSamples (isFull : table.IsFull inputs.length) (inDomain : inputs.length ≤ domain.length) :
    ∀ corner ∈ corners (table.axes domain inputs), table.HasSamples corner := by
  intro corner isCorner output isOutput
  have inside := offset_lt (isFull.fit inDomain) isCorner
  rw [isFull.map_size_axes inDomain] at inside
  refine sampleAt_eq_ok isFull.fewBits (le_trans ?_ isFull.enoughSamples)
  rw [← Nat.succ_mul]
  refine Nat.mul_le_mul_right _ ?_
  have whole := Nat.mul_le_mul_right table.outputCount (Nat.succ_le_of_lt inside)
  rw [Nat.succ_mul] at whole
  omega

/-- The weighed samples at the corners add up to the interpolation. -/
theorem sum_weighedSample (isFull : table.IsFull inputs.length)
    (inDomain : inputs.length ≤ domain.length) (output : Nat) :
    ((corners (table.axes domain inputs)).map (table.weighedSample output)).sum =
      multilinear (table.encodedPoint domain inputs) (table.storedAt output) := by
  rw [encodedPoint, ← sum_corners (isFull.fit inDomain), corners_eq, List.map_map]
  refine congrArg List.sum (List.map_congr_left fun number _ => ?_)
  have onGrid := (cornerPoint_lt (isFull.fit inDomain) number).length_eq
  rw [isFull.map_size_axes inDomain] at onGrid
  show cornerWeight _ _ * (table.sampleNumber (gridNumber _ _ * _ + output) : ℚ) = _
  rw [isFull.map_size_axes inDomain, gridNumber_take (onGrid.trans_le (List.length_take_le _ _)), storedAt]

end IsFull

/-- Samples of four bits on a grid of two by three points, for two outputs. -/
def ramps : SampleTable ℚ :=
  ⟨[2, 3], 4, [0, 1, 0, 2], [0, 15, 0, 30], [0x0F, 0x4B, 0x87, 0xC3, 0xF0, 0x80]⟩

end SampleTable
end Monochrome
