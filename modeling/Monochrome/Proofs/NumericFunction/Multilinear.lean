import Mathlib.Algebra.BigOperators.Ring.List
import Mathlib.Data.Set.Finite.List
import Mathlib.Data.Set.Finite.Lemmas
import Monochrome.NumericFunction.Grid
import Monochrome.Proofs.ExactLevels

/-!
# Multilinear interpolation

Values at the points of a grid are interpolated along one dimension after the other, between the grid points
at or before and at or after a position.  The corners of a grid cell are numbered by the bits that tell along
which dimensions a corner is an upper one.  In exact arithmetic the values at the corners, weighed, add up to
the multilinear interpolation, the weights to one.  The last grid point along a dimension has none after it,
but there the upper corners have no weight.
-/

namespace Monochrome

/-- Values at grid points interpolated at a position, along one dimension after the other. -/
def multilinear : List ℚ → (List Nat → ℚ) → ℚ
  | [], values => values []
  | position :: rest, values =>
    (1 - Int.fract position) * multilinear rest (fun point => values (⌊position⌋₊ :: point)) +
      Int.fract position * multilinear rest (fun point => values (⌈position⌉₊ :: point))

/-- The grid points around a position. -/
def around : List ℚ → List (List Nat)
  | [] => [[]]
  | position :: rest =>
    (around rest).map (⌊position⌋₊ :: ·) ++ (around rest).map (⌈position⌉₊ :: ·)

/-- The number of a point of a grid of some sizes, with the first dimension varying fastest. -/
def gridNumber : List Nat → List Nat → Nat
  | size :: sizes, index :: point => index + size * gridNumber sizes point
  | _, _ => 0

/-! ## Values between those around -/

section Around

variable {positions : List ℚ} {values : List Nat → ℚ}

/-- Every position has grid points around it. -/
theorem around_ne_nil (positions : List ℚ) : around positions ≠ [] := by
  induction positions with
  | nil => exact List.cons_ne_nil _ _
  | cons position rest inductionHypothesis => simp [around, inductionHypothesis]

/-- A value that is at most every one around is at most the interpolated one. -/
theorem le_multilinear {bound : ℚ} (atMost : ∀ point ∈ around positions, bound ≤ values point) :
    bound ≤ multilinear positions values := by
  induction positions generalizing values with
  | nil => exact atMost [] List.mem_cons_self
  | cons position rest inductionHypothesis =>
      have before : bound ≤ multilinear rest fun point => values (⌊position⌋₊ :: point) :=
        inductionHypothesis fun point isAround =>
          atMost _ (List.mem_append_left _ (List.mem_map_of_mem isAround))
      have after : bound ≤ multilinear rest fun point => values (⌈position⌉₊ :: point) :=
        inductionHypothesis fun point isAround =>
          atMost _ (List.mem_append_right _ (List.mem_map_of_mem isAround))
      have nonnegative := Int.fract_nonneg position
      have proper : 0 ≤ 1 - Int.fract position := by linarith [Int.fract_lt_one position]
      calc bound = (1 - Int.fract position) * bound + Int.fract position * bound := by ring
        _ ≤ _ := by
          rw [multilinear]
          gcongr

/-- Opposite values are interpolated to the opposite value. -/
theorem multilinear_neg (positions : List ℚ) (values : List Nat → ℚ) :
    multilinear positions (fun point => -values point) = -multilinear positions values := by
  induction positions generalizing values with
  | nil => rfl
  | cons position rest inductionHypothesis =>
      rw [multilinear, multilinear, inductionHypothesis, inductionHypothesis]
      ring

/-- The interpolated value is at least the least of the values around. -/
theorem exists_least_around (positions : List ℚ) (values : List Nat → ℚ) :
    ∃ least ∈ around positions, (∀ point ∈ around positions, values least ≤ values point) ∧
      values least ≤ multilinear positions values := by
  obtain ⟨least, isAround, isLeast⟩ := Set.exists_min_image {point | point ∈ around positions} values
    (List.finite_toSet _) (List.exists_mem_of_ne_nil _ (around_ne_nil positions))
  exact ⟨least, isAround, isLeast, le_multilinear isLeast⟩

/-- The interpolated value is at most the greatest of the values around. -/
theorem exists_greatest_around (positions : List ℚ) (values : List Nat → ℚ) :
    ∃ greatest ∈ around positions, (∀ point ∈ around positions, values point ≤ values greatest) ∧
      multilinear positions values ≤ values greatest := by
  obtain ⟨greatest, isAround, isGreatest, below⟩ :=
    exists_least_around positions fun point => -values point
  rw [multilinear_neg] at below
  exact ⟨greatest, isAround, fun point among => neg_le_neg_iff.1 (isGreatest point among),
    neg_le_neg_iff.1 below⟩

/-- Equal values are interpolated to the same value. -/
theorem multilinear_const (positions : List ℚ) (value : ℚ) :
    multilinear positions (fun _ => value) = value := by
  induction positions with
  | nil => rfl
  | cons position rest inductionHypothesis =>
      rw [multilinear, inductionHypothesis]
      ring

/-- At a grid point the interpolated value is the one there. -/
theorem multilinear_natCast (point : List Nat) (values : List Nat → ℚ) :
    multilinear (point.map fun index : Nat => (index : ℚ)) values = values point := by
  induction point generalizing values with
  | nil => rfl
  | cons index point inductionHypothesis =>
      rw [List.map_cons, multilinear, Int.fract_natCast, Nat.floor_natCast, inductionHypothesis]
      ring

end Around

/-- The number of a point of a grid is less than the number of its points. -/
theorem gridNumber_lt {sizes point : List Nat} (inside : List.Forall₂ (· < ·) point sizes) :
    gridNumber sizes point < sizes.prod := by
  induction inside with
  | nil => exact Nat.one_pos
  | @cons index size point sizes below _ inductionHypothesis =>
      rw [gridNumber, List.prod_cons]
      calc index + size * gridNumber sizes point < size * (gridNumber sizes point + 1) := by
            rw [Nat.mul_succ]
            omega
        _ ≤ size * sizes.prod := Nat.mul_le_mul_left _ inductionHypothesis

/-- Only the sizes of the dimensions that a point has matter to its number. -/
theorem gridNumber_take {sizes point : List Nat} {count : Nat} (short : point.length ≤ count) :
    gridNumber (sizes.take count) point = gridNumber sizes point := by
  induction point generalizing sizes count with
  | nil => cases sizes <;> cases count <;> rfl
  | cons index point inductionHypothesis =>
      obtain ⟨count, rfl⟩ := Nat.exists_eq_add_of_lt (Nat.lt_of_lt_of_le (Nat.succ_pos _) short)
      cases sizes with
      | nil => rfl
      | cons size sizes =>
          rw [Nat.zero_add, List.take_succ_cons, gridNumber, gridNumber,
            inductionHypothesis (by simpa using short)]

namespace SampleTable

/-! ## Positions on an axis -/

/-- Whether the position on an axis is between its first grid point and its last one.  Numbers of grid points
are machine words. -/
structure Axis.Fits (axis : Axis ℚ) : Prop where
  positive : 1 ≤ axis.size
  isWord : axis.size ≤ 2 ^ 64
  nonnegative : 0 ≤ axis.position
  within : axis.position ≤ (axis.size - 1 : Nat)

namespace Axis.Fits

variable {axis : Axis ℚ}

/-- The floor of a position is the number of a grid point. -/
theorem floor_lt (fits : axis.Fits) : ⌊axis.position⌋₊ < axis.size := by
  have below := Nat.floor_le_of_le fits.within
  have positive := fits.positive
  omega

/-- The ceiling of a position is the number of a grid point. -/
theorem ceil_lt (fits : axis.Fits) : ⌈axis.position⌉₊ < axis.size := by
  have below := Nat.ceil_le.2 fits.within
  have positive := fits.positive
  omega

/-- The lower grid point is the floor of the position. -/
theorem lower_eq (fits : axis.Fits) : axis.lower = ⌊axis.position⌋₊ := by
  show (max 0 (min (2 ^ 64 - 1) (Exact.round .towardZero ((⌊axis.position⌋ : ℤ) : ℚ)))).toNat = _
  have nonnegative := Int.floor_nonneg.2 fits.nonnegative
  have below := fits.floor_lt
  have isWord := fits.isWord
  rw [← Int.floor_toNat] at below ⊢
  rw [Exact.round_intCast, min_eq_right, max_eq_right nonnegative]
  omega

/-- The upper grid point is one that there is. -/
theorem upper_lt (fits : axis.Fits) : axis.upper < axis.size := by
  have positive := fits.positive
  rw [Axis.upper]
  omega

/-- The part past the lower grid point is the fractional part of the position. -/
theorem fraction_eq (fits : axis.Fits) : axis.fraction = Int.fract axis.position := by
  show axis.position - ((axis.lower : ℤ) : ℚ) = _
  rw [fits.lower_eq, Int.natCast_floor_eq_floor fits.nonnegative, Int.self_sub_floor]

/-- The upper grid point is the ceiling of the position, unless the position is a grid point. -/
theorem upper_eq (fits : axis.Fits) (between : Int.fract axis.position ≠ 0) :
    axis.upper = ⌈axis.position⌉₊ := by
  have strict : (⌊axis.position⌋₊ : ℚ) < axis.position := by
    rw [natCast_floor_eq_intCast_floor fits.nonnegative, ← sub_pos, Int.self_sub_floor]
    exact lt_of_le_of_ne (Int.fract_nonneg _) between.symm
  have above := Nat.lt_ceil.2 strict
  have atMost := Nat.ceil_le_floor_add_one axis.position
  have below := fits.ceil_lt
  rw [Axis.upper, fits.lower_eq]
  omega

end Axis.Fits

/-! ## Corners by number -/

/-- The weight of a corner.  The bits of its number, the lowest first, tell along which dimensions it is an
upper one. -/
def cornerWeight : List (Axis ℚ) → Nat → ℚ
  | [], _ => 1
  | axis :: rest, number =>
    (if number % 2 = 0 then 1 - axis.fraction else axis.fraction) * cornerWeight rest (number / 2)

/-- The grid point at a corner. -/
def cornerPoint : List (Axis ℚ) → Nat → List Nat
  | [], _ => []
  | axis :: rest, number =>
    (if number % 2 = 0 then axis.lower else axis.upper) :: cornerPoint rest (number / 2)

/-- Numbers below an even one are two by two those with the same half. -/
theorem range_two_mul (count : Nat) :
    List.range (2 * count) = (List.range count).flatMap fun half => [2 * half, 2 * half + 1] := by
  induction count with
  | zero => rfl
  | succ count inductionHypothesis =>
      rw [Nat.mul_succ, List.range_succ, List.range_succ, inductionHypothesis, List.range_succ,
        List.flatMap_append, List.append_assoc]
      rfl

/-- A sum over numbers below an even one, two by two. -/
theorem sum_range_two_mul (count : Nat) (term : Nat → ℚ) :
    ((List.range (2 * count)).map term).sum =
      ((List.range count).map fun half => term (2 * half) + term (2 * half + 1)).sum := by
  rw [range_two_mul, List.map_flatMap, List.flatMap_def, List.sum_flatten, List.map_map]
  simp [Function.comp_def]

/-- The lower corner with a half of a number along the other dimensions. -/
theorem corner_two_mul (axis : Axis ℚ) (axes : List (Axis ℚ)) (half : Nat) :
    cornerWeight (axis :: axes) (2 * half) = (1 - axis.fraction) * cornerWeight axes half ∧
      cornerPoint (axis :: axes) (2 * half) = axis.lower :: cornerPoint axes half := by
  have isEven : 2 * half % 2 = 0 := Nat.mul_mod_right 2 half
  have isHalf : 2 * half / 2 = half := Nat.mul_div_cancel_left half two_pos
  rw [cornerWeight, cornerPoint, if_pos isEven, if_pos isEven, isHalf]
  exact ⟨rfl, rfl⟩

/-- The upper corner with a half of a number along the other dimensions. -/
theorem corner_two_mul_add_one (axis : Axis ℚ) (axes : List (Axis ℚ)) (half : Nat) :
    cornerWeight (axis :: axes) (2 * half + 1) = axis.fraction * cornerWeight axes half ∧
      cornerPoint (axis :: axes) (2 * half + 1) = axis.upper :: cornerPoint axes half := by
  have isOdd : (2 * half + 1) % 2 ≠ 0 := by omega
  have isHalf : (2 * half + 1) / 2 = half := by omega
  rw [cornerWeight, cornerPoint, if_neg isOdd, if_neg isOdd, isHalf]
  exact ⟨rfl, rfl⟩

/-- A corner that is moved along one dimension, and then along those after it. -/
theorem Corner.move_move (corner : Corner ℚ) (weight other : ℚ) (steps more stride size : Nat) :
    (corner.move weight steps stride).move other more (stride * size) =
      corner.move (weight * other) (steps + size * more) stride := by
  have weights : corner.weight * weight * other = corner.weight * (weight * other) := mul_assoc _ _ _
  have offsets : corner.offset + steps * stride + more * (stride * size) =
      corner.offset + (steps + size * more) * stride := by ring
  exact congrArg₂ Corner.mk weights offsets

/-- The corners from some on are those moved to every corner along the dimensions after. -/
theorem cornersFrom_eq (stride : Nat) (start : List (Corner ℚ)) (axes : List (Axis ℚ)) :
    cornersFrom stride start axes = (List.range (2 ^ axes.length)).flatMap fun number =>
      start.map (·.move (cornerWeight axes number)
        (gridNumber (axes.map Axis.size) (cornerPoint axes number)) stride) := by
  induction axes generalizing stride start with
  | nil =>
      have still (corner : Corner ℚ) : corner.move 1 0 stride = corner :=
        congrArg₂ Corner.mk (mul_one corner.weight) (by rw [Nat.zero_mul, Nat.add_zero])
      simp [cornersFrom, cornerWeight, gridNumber, still]
  | cons axis axes inductionHypothesis =>
      have one : (1.0 : ℚ) = 1 := by norm_num
      rw [cornersFrom, inductionHypothesis, List.length_cons, Nat.pow_succ', range_two_mul,
        List.flatMap_assoc]
      refine List.flatMap_congr fun half _ => ?_
      obtain ⟨lowerWeight, lowerPoint⟩ := corner_two_mul axis axes half
      obtain ⟨upperWeight, upperPoint⟩ := corner_two_mul_add_one axis axes half
      simp only [List.flatMap_cons, List.flatMap_nil, List.append_nil, List.map_append, List.map_map,
        Function.comp_def, Corner.move_move, lowerWeight, lowerPoint, upperWeight, upperPoint,
        List.map_cons, gridNumber, one]

/-- The corners of a cell, one for each number. -/
theorem corners_eq (axes : List (Axis ℚ)) :
    corners axes = (List.range (2 ^ axes.length)).map fun number =>
      ⟨cornerWeight axes number, gridNumber (axes.map Axis.size) (cornerPoint axes number)⟩ := by
  have start (weight : ℚ) (steps : Nat) : Corner.move ⟨1.0, 0⟩ weight steps 1 = ⟨weight, steps⟩ := by
    have weights : (1.0 : ℚ) * weight = weight := by norm_num
    exact congrArg₂ Corner.mk weights (by rw [Nat.mul_one, Nat.zero_add])
  simp only [corners, cornersFrom_eq, List.map_cons, List.map_nil, start]
  exact List.map_eq_flatMap.symm

section Corners

variable {axes : List (Axis ℚ)}

/-- A corner of a cell on the grid is a point of the grid. -/
theorem cornerPoint_lt (fit : ∀ axis ∈ axes, axis.Fits) (number : Nat) :
    List.Forall₂ (· < ·) (cornerPoint axes number) (axes.map Axis.size) := by
  induction axes generalizing number with
  | nil => exact .nil
  | cons axis axes inductionHypothesis =>
      obtain ⟨fits, fit⟩ := List.forall_mem_cons.1 fit
      refine .cons ?_ (inductionHypothesis fit _)
      split
      · rw [fits.lower_eq]
        exact fits.floor_lt
      · exact fits.upper_lt

/-- The points around a position on the grid are points of the grid. -/
theorem around_lt (fit : ∀ axis ∈ axes, axis.Fits) {point : List Nat}
    (isAround : point ∈ around (axes.map Axis.position)) :
    List.Forall₂ (· < ·) point (axes.map Axis.size) := by
  induction axes generalizing point with
  | nil =>
      obtain rfl := List.mem_singleton.1 isAround
      exact .nil
  | cons axis axes inductionHypothesis =>
      obtain ⟨fits, fit⟩ := List.forall_mem_cons.1 fit
      rcases List.mem_append.1 isAround with isBefore | isAfter
      · obtain ⟨point, among, rfl⟩ := List.mem_map.1 isBefore
        exact .cons fits.floor_lt (inductionHypothesis fit among)
      · obtain ⟨point, among, rfl⟩ := List.mem_map.1 isAfter
        exact .cons fits.ceil_lt (inductionHypothesis fit among)

/-- The products of nearnesses are not negative. -/
theorem cornerWeight_nonneg (fit : ∀ axis ∈ axes, axis.Fits) (number : Nat) :
    0 ≤ cornerWeight axes number := by
  induction axes generalizing number with
  | nil => exact zero_le_one
  | cons axis axes inductionHypothesis =>
      obtain ⟨fits, fit⟩ := List.forall_mem_cons.1 fit
      have nonnegative := Int.fract_nonneg axis.position
      have proper := Int.fract_lt_one axis.position
      refine mul_nonneg ?_ (inductionHypothesis fit _)
      rw [fits.fraction_eq]
      split <;> linarith

/-- The weighed values at the corners of a cell on the grid add up to the multilinear interpolation. -/
theorem sum_corners (fit : ∀ axis ∈ axes, axis.Fits) (values : List Nat → ℚ) :
    ((List.range (2 ^ axes.length)).map fun number =>
        cornerWeight axes number * values (cornerPoint axes number)).sum =
      multilinear (axes.map Axis.position) values := by
  induction axes generalizing values with
  | nil =>
      show 1 * values [] + 0 = values []
      rw [one_mul, add_zero]
  | cons axis axes inductionHypothesis =>
      obtain ⟨fits, fit⟩ := List.forall_mem_cons.1 fit
      -- At a grid point the upper neighbour of the cell may be another one, but it has no weight.
      have upper : Int.fract axis.position *
            multilinear (axes.map Axis.position) (fun point => values (axis.upper :: point)) =
          Int.fract axis.position *
            multilinear (axes.map Axis.position) (fun point => values (⌈axis.position⌉₊ :: point)) := by
        by_cases between : Int.fract axis.position = 0
        · rw [between, zero_mul, zero_mul]
        · rw [fits.upper_eq between]
      rw [List.map_cons, multilinear, ← upper, ← fits.lower_eq, ← inductionHypothesis fit,
        ← inductionHypothesis fit, ← List.sum_map_mul_left, ← List.sum_map_mul_left, ← List.sum_map_add,
        List.length_cons, Nat.pow_succ', sum_range_two_mul]
      refine congrArg List.sum (List.map_congr_left fun half _ => ?_)
      obtain ⟨lowerWeight, lowerPoint⟩ := corner_two_mul axis axes half
      obtain ⟨upperWeight, upperPoint⟩ := corner_two_mul_add_one axis axes half
      rw [lowerWeight, lowerPoint, upperWeight, upperPoint, fits.fraction_eq, mul_assoc, mul_assoc]

/-- The corners of a cell on the grid are points of the grid. -/
theorem offset_lt (fit : ∀ axis ∈ axes, axis.Fits) {corner : Corner ℚ} (isCorner : corner ∈ corners axes) :
    corner.offset < (axes.map Axis.size).prod := by
  rw [corners_eq] at isCorner
  obtain ⟨number, -, rfl⟩ := List.mem_map.1 isCorner
  exact gridNumber_lt (cornerPoint_lt fit number)

/-- No corner of a cell on the grid has a negative weight. -/
theorem weight_nonneg (fit : ∀ axis ∈ axes, axis.Fits) {corner : Corner ℚ}
    (isCorner : corner ∈ corners axes) : 0 ≤ corner.weight := by
  rw [corners_eq] at isCorner
  obtain ⟨number, -, rfl⟩ := List.mem_map.1 isCorner
  exact cornerWeight_nonneg fit number

/-- The weights of the corners of a cell on the grid add up to one. -/
theorem sum_weights (fit : ∀ axis ∈ axes, axis.Fits) : ((corners axes).map Corner.weight).sum = 1 := by
  have ones := sum_corners fit fun _ => 1
  simp only [mul_one, multilinear_const] at ones
  rw [corners_eq, List.map_map]
  exact ones

end Corners

end SampleTable
end Monochrome
