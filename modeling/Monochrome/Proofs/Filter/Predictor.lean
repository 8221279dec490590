import Mathlib.Data.List.MinMax
import Monochrome.Filter.Chain

/-!
# Predictions are taken back

The filters of the PNG specification replace each byte of a row by its difference from a prediction,
which a filter makes from the bytes a pixel to the left, above, and a pixel to the left above; what lies
outside of the image is zero.  Rows may choose their filters freely.  The reader sees the same
neighbours, as it has them back before it comes to the byte, so that it adds the same predictions.
The differences of the TIFF predictor are those of the filter for neighbours to the left.
-/

namespace Monochrome

/-- Pieces of full length are cut off one after the other. -/
theorem Bytes.chunks_append {size : Nat} {piece : Bytes} (full : piece.length = size)
    (positive : 0 < size) (rest : Bytes) : chunks size (piece ++ rest) = piece :: chunks size rest := by
  match piece with
  | [] => exact absurd full (Nat.ne_of_lt positive)
  | byte :: piece =>
      have others : size - 1 = piece.length := by rw [← full]; rfl
      rw [List.cons_append, chunks, others, List.take_left, List.drop_left]

/-- Bytes that are no more than a piece are one. -/
theorem Bytes.chunks_of_length_le {size : Nat} {piece : Bytes} (nonempty : piece ≠ [])
    (short : piece.length ≤ size) : chunks size piece = [piece] := by
  match piece with
  | [] => exact absurd rfl nonempty
  | byte :: piece =>
      have others : piece.length ≤ size - 1 := Nat.le_sub_one_of_lt short
      rw [chunks, List.take_of_length_le others, List.drop_of_length_le others, chunks]

namespace Predictor

/-! ## Filters of rows -/

/-- The filters of the PNG specification. -/
inductive RowFilter
  | none
  | sub
  | up
  | average
  | paeth
deriving DecidableEq, Repr

namespace RowFilter

/-- The type that stands before a row. -/
def type : RowFilter → UInt8
  | none => 0
  | sub => 1
  | up => 2
  | average => 3
  | paeth => 4

/-- What a filter takes a byte for, given its neighbours.  The Paeth filter takes the neighbour that is
nearest to left plus above minus corner, the first one of several. -/
def prediction (filter : RowFilter) (left above corner : Nat) : Nat :=
  match filter with
  | none => 0
  | sub => left
  | up => above
  | average => (left + above) / 2
  | paeth =>
    ([left, above, corner].argmin fun value : Nat =>
      ((left : Int) + above - corner - value).natAbs).getD 0

/-- The first of three values that is least in some measure. -/
theorem argmin_three (measure : Nat → Nat) (first second third : Nat) :
    [first, second, third].argmin measure =
      some (if measure first ≤ measure second ∧ measure first ≤ measure third then first
        else if measure second ≤ measure third then second
        else third) := by
  simp only [List.argmin, List.argAux, List.foldl]
  by_cases less : measure second < measure first
  · rw [if_pos less, if_neg (by omega)]
    by_cases least : measure second ≤ measure third
    · simp [least, Nat.not_lt.2 least]
    · simp [least, Nat.lt_of_not_le least]
  · rw [if_neg less]
    by_cases least : measure first ≤ measure third
    · simp [least, Nat.not_lt.2 least, Nat.le_of_not_lt less]
    · have more : ¬measure second ≤ measure third := by omega
      simp [least, Nat.lt_of_not_le least, more]

/-- The reader makes the prediction of the filter whose type a row has. -/
theorem predict_type (filter : RowFilter) (left above corner : UInt8) :
    predict filter.type left above corner =
      (filter.prediction left.toNat above.toNat corner.toNat).toUInt8 := by
  cases filter with
  | none => rfl
  | sub => simp [predict, type, prediction]
  | up => simp [predict, type, prediction]
  | average => rfl
  | paeth =>
      show Predictor.paeth left above corner = _
      rw [prediction, argmin_three, Option.getD_some, Predictor.paeth]
      simp only [Bool.and_eq_true, decide_eq_true_eq]
      split_ifs <;> simp

end RowFilter

/-- The byte at a distance to the left of a position; before the row there are zeros. -/
def byteLeft (row : Bytes) (distance index : Nat) : UInt8 :=
  if distance ≤ index then row.getD (index - distance) 0 else 0

/-- A row with the prediction of a filter subtracted from each byte, modulo 256. -/
def RowFilter.apply (filter : RowFilter) (pixelBytes : Nat) (above row : Bytes) : Bytes :=
  row.mapIdx fun index byte =>
    byte - (filter.prediction (byteLeft row pixelBytes index).toNat (above.getD index 0).toNat
      (byteLeft above pixelBytes index).toNat).toUInt8

/-- The rows of an image below a row, each with its filter applied and behind the type of this. -/
def filterRows (pixelBytes : Nat) (above : Bytes) : List (RowFilter × Bytes) → Bytes
  | [] => []
  | (filter, row) :: rows =>
    filter.type :: filter.apply pixelBytes above row ++ filterRows pixelBytes row rows

/-- Samples of a byte each, with the sample of the pixel to the left in the same row subtracted. -/
def differences (rowBytes pixelBytes : Nat) (data : Bytes) : Bytes :=
  data.mapIdx fun index byte =>
    if pixelBytes ≤ index % max rowBytes 1 then byte - data.getD (index - pixelBytes) 0 else byte

/-! ## Taking predictions back -/

section Rows

variable {pixelBytes : Nat} (nonzero : 0 < pixelBytes)
include nonzero

/-- The window of the reader begins with the byte a pixel to the left. -/
theorem headD_window (done rest : Bytes) :
    ((List.replicate pixelBytes 0 ++ done).drop done.length).headD 0 =
      byteLeft (done ++ rest) pixelBytes done.length := by
  rw [List.headD_eq_head?_getD, List.head?_drop, byteLeft]
  split
  · rename_i inside
    rw [List.getElem?_append_right (by simpa using inside), List.length_replicate,
      List.getD_eq_getElem?_getD, List.getElem?_append_left (by omega)]
  · rename_i outside
    rw [List.getElem?_append_left (by simpa using outside), List.getElem?_replicate]
    simp [Nat.lt_of_not_le outside]

/-- The rest of a row is had back behind what was had back before. -/
theorem undoRow_behind (type : UInt8) (above corner done row : Bytes) :
    undoRow type ((List.replicate pixelBytes 0 ++ done).drop done.length) (above.drop done.length)
        (corner.drop done.length)
        (row.mapIdx fun index byte => byte - predict type
          (byteLeft (done ++ row) pixelBytes (done.length + index))
          (above.getD (done.length + index) 0) (corner.getD (done.length + index) 0)) = row := by
  induction row generalizing done with
  | nil => rfl
  | cons byte row inductionHypothesis =>
      have window : (List.replicate pixelBytes 0 ++ done).drop (done.length + 1) ++ [byte] =
          (List.replicate pixelBytes 0 ++ (done ++ [byte])).drop (done.length + 1) := by
        rw [← List.append_assoc]
        exact (List.drop_append_of_le_length (by simp; omega)).symm
      have later := inductionHypothesis (done ++ [byte])
      rw [List.length_append, List.length_singleton, ← window, List.append_assoc,
        List.singleton_append] at later
      rw [List.mapIdx_cons, undoRow]
      simp only [headD_window nonzero done (byte :: row), List.headD_eq_head?_getD, List.head?_drop,
        ← List.getD_eq_getElem?_getD, List.tail_drop, Nat.add_zero, UInt8.sub_add_cancel]
      simp only [Nat.add_assoc, Nat.add_comm 1] at later ⊢
      rw [later]

/-- A row is had back by adding predictions from what was had back. -/
theorem undoRow_mapIdx (type : UInt8) (above corner row : Bytes) :
    undoRow type (List.replicate pixelBytes 0) above corner
        (row.mapIdx fun index byte => byte - predict type (byteLeft row pixelBytes index)
          (above.getD index 0) (corner.getD index 0)) = row := by
  have whole := undoRow_behind nonzero type above corner [] row
  simpa using whole

/-- A row is had back from what a filter made of it. -/
theorem undoRow_apply (filter : RowFilter) (above row : Bytes) :
    undoRow filter.type (List.replicate pixelBytes 0) above (List.replicate pixelBytes 0 ++ above)
      (filter.apply pixelBytes above row) = row := by
  have corner (index : Nat) :
      (List.replicate pixelBytes (0 : UInt8) ++ above).getD index 0 = byteLeft above pixelBytes index := by
    rw [byteLeft, List.getD_eq_getElem?_getD]
    split
    · rename_i inside
      rw [List.getElem?_append_right (by simpa using inside), List.length_replicate,
        List.getD_eq_getElem?_getD]
    · rename_i outside
      rw [List.getElem?_append_left (by simpa using outside), List.getElem?_replicate]
      simp [Nat.lt_of_not_le outside]
  have back := undoRow_mapIdx nonzero filter.type above (List.replicate pixelBytes 0 ++ above) row
  simp only [corner, RowFilter.predict_type] at back
  exact back

end Rows

/-- Filters leave the length of a row. -/
@[simp] theorem RowFilter.length_apply (filter : RowFilter) (pixelBytes : Nat) (above row : Bytes) :
    (filter.apply pixelBytes above row).length = row.length :=
  List.length_mapIdx

/-- Rows are had back from what their filters made of them. -/
theorem undoRows_filterRows {rowBytes pixelBytes : Nat} (nonzero : 0 < pixelBytes) (above : Bytes)
    (rows : List (RowFilter × Bytes)) (full : ∀ row ∈ rows, row.2.length = rowBytes) :
    undoRows pixelBytes above (Bytes.chunks (rowBytes + 1) (filterRows pixelBytes above rows)) =
      rows.flatMap Prod.snd := by
  induction rows generalizing above with
  | nil => rw [filterRows, Bytes.chunks, undoRows, List.flatMap_nil]
  | cons first rows inductionHypothesis =>
      obtain ⟨filter, row⟩ := first
      obtain ⟨isFull, others⟩ := List.forall_mem_cons.1 full
      have piece : (filter.type :: filter.apply pixelBytes above row).length = rowBytes + 1 := by
        rw [List.length_cons, RowFilter.length_apply, isFull]
      rw [filterRows, Bytes.chunks_append piece (Nat.succ_pos _), undoRows]
      simp only [undoRow_apply nonzero, inductionHypothesis row others, List.flatMap_cons]

/-! ## Taking differences back -/

/-- The differences in a row that is not longer than the others. -/
theorem differences_of_length_le {rowBytes pixelBytes : Nat} {row : Bytes}
    (short : row.length ≤ max rowBytes 1) : differences rowBytes pixelBytes row =
      row.mapIdx fun index byte => byte - byteLeft row pixelBytes index := by
  apply List.mapIdx_eq_mapIdx_iff.2
  intro index inside
  rw [Nat.mod_eq_of_lt (by omega), byteLeft]
  split <;> simp

/-- The differences in a row and those in what follows it. -/
theorem differences_append {rowBytes pixelBytes : Nat} {row : Bytes}
    (full : row.length = max rowBytes 1) (rest : Bytes) :
    differences rowBytes pixelBytes (row ++ rest) =
      differences rowBytes pixelBytes row ++ differences rowBytes pixelBytes rest := by
  unfold differences
  rw [List.mapIdx_append]
  congr 1
  · apply List.mapIdx_eq_mapIdx_iff.2
    intro index inside
    rw [Nat.mod_eq_of_lt (by omega)]
    split
    · rw [List.getD_eq_getElem?_getD, List.getElem?_append_left (by omega),
        ← List.getD_eq_getElem?_getD]
    · rfl
  · apply List.mapIdx_eq_mapIdx_iff.2
    intro index inside
    rw [full, Nat.add_mod_right]
    split
    · rename_i left
      have within := Nat.le_trans left (Nat.mod_le index _)
      rw [List.getD_eq_getElem?_getD, List.getElem?_append_right (by omega),
        ← List.getD_eq_getElem?_getD]
      congr 2
      omega
    · rfl

/-- Data is had back from the differences in its rows, of which the last may be incomplete. -/
theorem undoDifferences_differences (rowBytes : Nat) {pixelBytes : Nat} (nonzero : 0 < pixelBytes)
    (data : Bytes) :
    undoDifferences rowBytes pixelBytes (differences rowBytes pixelBytes data) = data := by
  have oneRow {row : Bytes} (short : row.length ≤ max rowBytes 1) :
      undoRow 1 (List.replicate pixelBytes 0) [] [] (differences rowBytes pixelBytes row) = row := by
    have back := undoRow_mapIdx nonzero 1 [] [] row
    rw [differences_of_length_le short]
    exact back
  unfold undoDifferences
  induction count : data.length using Nat.strong_induction_on generalizing data with
  | _ count inductionHypothesis =>
      by_cases none : data = []
      · subst none
        rw [differences, List.mapIdx_nil, Bytes.chunks, List.flatMap_nil]
      · have positive := List.length_pos_iff.2 none
        by_cases last : data.length ≤ max rowBytes 1
        · have isLength : (differences rowBytes pixelBytes data).length = data.length :=
            List.length_mapIdx
          rw [Bytes.chunks_of_length_le (List.length_pos_iff.1 (by omega)) (by omega),
            List.flatMap_singleton, oneRow last]
        · have full : (data.take (max rowBytes 1)).length = max rowBytes 1 := by
            rw [List.length_take]
            omega
          have isLength : (differences rowBytes pixelBytes (data.take (max rowBytes 1))).length =
              max rowBytes 1 := List.length_mapIdx.trans full
          have later := inductionHypothesis (data.drop (max rowBytes 1)).length
            (by rw [List.length_drop]; omega) _ rfl
          rw [← List.take_append_drop (max rowBytes 1) data, differences_append full,
            Bytes.chunks_append isLength (by omega), List.flatMap_cons, oneRow full.le, later]

end Predictor

namespace Filter

open Predictor

/-! ## Predictors of parameters -/

namespace Parameters

/-- The distance of a pixel from the next one in bytes, at least one. -/
def pixelBytes (parameters : Parameters) : Nat :=
  max ((parameters.colors * parameters.bits + 7) / 8) 1

/-- The number of bytes of a row, whose last one may be filled up. -/
def rowBytes (parameters : Parameters) : Nat :=
  (parameters.columns * (parameters.colors * parameters.bits) + 7) / 8

end Parameters

/-- Parameters for rows of two pixels of three bytes. -/
def twoColors (predictor : Int64) : Parameters :=
  { predictor := predictor, colors := 3, columns := 2 }

end Filter
end Monochrome
