import Monochrome.Proofs.Image.Unpacking
import Monochrome.Proofs.Limits
import Monochrome.Proofs.Outcome

/-!
# Pixels by position

The colors of an image are found by going through its rows, the pixels of a row and the samples of a pixel,
and reading each sample and the two ends of its interval by their positions.  No position is outside of the
row or of the array that is read there, whatever array the file or the color space gives, so that the
colors are those that are found by taking the rows apart.  They are as many as the image has pixels, unless
the color space has not as many components as the image, the data ends too early, or a color is refused.
-/

namespace Monochrome
namespace SampleImage

variable {Single Double : Type} [Scalar Single]

/-! ## Reading by positions -/

/-- What is refused when it is taken apart is refused when it is read by positions. -/
def refusing {α : Type} (outcome : Outcome α) : Except Stop α :=
  outcome.mapError .refused

/-- The array onto whose numbers samples are mapped, two for each component.  That of the image counts
only if it is long enough, and if the color space has as many components as the image. -/
def decodeArray (image : SampleImage Single) (space : ColorSpace Single Double) : List Single :=
  match image.decode with
  | some decode =>
    if image.components = space.componentCount && 2 * image.components ≤ decode.length then decode
    else ofSpace
  | none => ofSpace
where
  /-- The array of the space in which the samples are read. -/
  ofSpace : List Single :=
    match image.readingSpace space with
    | .ok space => (space.sampleIntervals image.bits).flatMap fun interval => [interval.1, interval.2]
    | .error _ => []

/-- A component of a pixel of a row. -/
def componentAt (image : SampleImage Single) (decode : List Single) (row : Bytes) (pixel index : Nat) :
    Except Stop Single := do
  let sample ← sampleAt image.bits row (pixel * image.components + index)
  let low ← item decode (2 * index)
  let high ← item decode (2 * index + 1)
  return image.component sample (low, high)

section Colors

variable [Analysis Single] [Scalar Double] [Analysis Double] [Precision Single Double]

/-- The color of a pixel of a row. -/
def pixelAt (image : SampleImage Single) (space : ColorSpace Single Double) (decode : List Single)
    (row : Bytes) (pixel : Nat) : Except Stop (Rgb Single) := do
  let components ← (List.range image.components).mapM (image.componentAt decode row pixel)
  refusing (space.toRgb components)

/-- The colors of the row with the given number. -/
def rowAt (image : SampleImage Single) (space : ColorSpace Single Double) (decode : List Single)
    (index : Nat) : Except Stop (List (Rgb Single)) := do
  let row ← refusing (image.row index)
  (List.range image.width).mapM (image.pixelAt space decode row)

/-- The colors of an image in a color space, sample by sample. -/
def toRgbByPosition (image : SampleImage Single) (space : ColorSpace Single Double) :
    Except Stop (RgbImage Single) := do
  let reading ← refusing (image.readingSpace space)
  let rows ← (List.range image.height).mapM (image.rowAt reading (image.decodeArray space))
  return ⟨image.width, image.height, rows.flatten⟩

end Colors

/-! ## Intervals -/

section Pairs

variable {α : Type}

/-- The ends of intervals are the intervals again, two by two. -/
theorem pairs_flatMap (intervals : List (α × α)) :
    pairs (intervals.flatMap fun interval => [interval.1, interval.2]) = intervals := by
  induction intervals with
  | nil => rfl
  | cons interval intervals inductionHypothesis =>
      rw [List.flatMap_cons]
      exact congrArg (interval :: ·) inductionHypothesis

/-- A pair stands where its two values stand. -/
theorem getElem?_pairs (list : List α) (index : Nat) {first second : α}
    (isPair : (pairs list)[index]? = some (first, second)) :
    list[2 * index]? = some first ∧ list[2 * index + 1]? = some second := by
  fun_induction pairs list generalizing index with
  | case1 one other rest inductionHypothesis =>
      cases index with
      | zero => simpa using isPair
      | succ index =>
          rw [Nat.mul_succ]
          simpa using inductionHypothesis index (by simpa using isPair)
  | case2 list noPair => simp at isPair

/-- Two values that follow each other at an even place are a pair. -/
theorem getElem?_pairs_eq_some {list : List α} {index : Nat} {first second : α}
    (isFirst : list[2 * index]? = some first) (isSecond : list[2 * index + 1]? = some second) :
    (pairs list)[index]? = some (first, second) := by
  fun_induction pairs list generalizing index with
  | case1 one other rest inductionHypothesis =>
      cases index with
      | zero => simp_all
      | succ index =>
          rw [Nat.mul_succ] at isFirst isSecond
          exact inductionHypothesis (by simpa using isFirst) (by simpa using isSecond)
  | case2 list noPair =>
      match list, noPair with
      | [], _ => simp at isFirst
      | [single], _ => simp at isSecond
      | first :: second :: rest, noPair => exact absurd rfl (noPair first second rest)

/-- There are half as many pairs as values. -/
theorem length_pairs (list : List α) : (pairs list).length = list.length / 2 := by
  fun_induction pairs list with
  | case1 first second rest inductionHypothesis =>
      simp only [List.length_cons, inductionHypothesis]
      omega
  | case2 list noPair =>
      match list, noPair with
      | [], _ => simp
      | [single], _ => simp
      | first :: second :: rest, noPair => exact absurd rfl (noPair first second rest)

end Pairs

/-- A color space has an interval for each component. -/
theorem length_sampleIntervals (space : ColorSpace Single Double) (bits : Nat) :
    (space.sampleIntervals bits).length = space.componentCount := by
  cases space <;> simp [ColorSpace.sampleIntervals, ColorSpace.componentCount]

section Intervals

variable {image : SampleImage Single} {space reading : ColorSpace Single Double}

omit [Scalar Single] in
/-- The samples are read in a space with as many components as the image. -/
theorem componentCount_of_readingSpace (isReading : image.readingSpace space = .ok reading) :
    reading.componentCount = image.components := by
  unfold readingSpace at isReading
  split at isReading
  · rename_i same
    rw [← Except.ok.inj isReading, same]
  split at isReading
  · rename_i single
    rw [← Except.ok.inj isReading, single, ColorSpace.componentCount]
  split at isReading
  · rename_i three
    rw [← Except.ok.inj isReading, three, ColorSpace.componentCount]
  · cases isReading

omit [Scalar Single] in
/-- No space is found for components that neither the space has nor gray or the primary colors have. -/
theorem ne_of_readingSpace_error {fault : Fault}
    (refused : image.readingSpace space = .error fault) :
    image.components ≠ space.componentCount ∧ image.components ≠ 1 ∧ image.components ≠ 3 := by
  unfold readingSpace at refused
  split at refused
  · cases refused
  split at refused
  · cases refused
  split at refused
  · cases refused
  · rename_i notSame notSingle notThree
    exact ⟨notSame, notSingle, notThree⟩

/-- The intervals are the numbers of the array, two by two. -/
theorem pairs_decodeArray (image : SampleImage Single) (space : ColorSpace Single Double) :
    pairs (image.decodeArray space) = image.intervals space := by
  have ofSpace : pairs (decodeArray.ofSpace image space) = intervals.defaultIntervals image space := by
    rw [decodeArray.ofSpace, intervals.defaultIntervals]
    cases image.readingSpace space with
    | ok reading => exact pairs_flatMap _
    | error fault => rw [pairs.eq_def]
  rw [decodeArray, intervals]
  cases image.decode with
  | none => exact ofSpace
  | some decode => dsimp only; split <;> first | rfl | exact ofSpace

/-- There is an interval for each component in which the samples are read. -/
theorem components_le_length_intervals (isReading : image.readingSpace space = .ok reading) :
    image.components ≤ (image.intervals space).length := by
  have ofSpace : image.components ≤ (intervals.defaultIntervals image space).length := by
    rw [intervals.defaultIntervals, isReading]
    dsimp only
    rw [length_sampleIntervals, componentCount_of_readingSpace isReading, Nat.le_iff_lt_or_eq]
    exact Or.inr rfl
  rw [intervals]
  cases image.decode with
  | none => exact ofSpace
  | some decode =>
      dsimp only
      split
      · rename_i enough
        rw [Bool.and_eq_true, decide_eq_true_eq, decide_eq_true_eq] at enough
        rw [length_pairs]
        omega
      · exact ofSpace

end Intervals

/-! ## Taking apart and reading by positions -/

section Sequences

variable {α β : Type}

/-- What is read in sequence is refused where one of the readings is. -/
theorem refusing_bind (first : Outcome α) (next : α → Outcome β) :
    refusing (first >>= next) = refusing first >>= fun found => refusing (next found) := by
  cases first <;> rfl

/-- Values that are read one after the other. -/
theorem mapM_range'_eq_ok {read : Nat → Except Stop α} {values : List α} {start count : Nat}
    (same : values.length = count)
    (each : ∀ index value, values[index]? = some value → read (start + index) = .ok value) :
    (List.range' start count).mapM read = .ok values := by
  subst same
  induction values generalizing start with
  | nil => rfl
  | cons value values inductionHypothesis =>
      have others : (List.range' (start + 1) values.length).mapM read = .ok values := by
        refine inductionHypothesis fun index value isValue => ?_
        rw [Nat.add_right_comm, Nat.add_assoc]
        exact each (index + 1) value isValue
      rw [List.length_cons, List.range'_succ, List.mapM_cons, others, ← Nat.add_zero start,
        each 0 value rfl]
      rfl

end Sequences

/-- The components of a pixel are read inside of the row and of the array. -/
theorem mapM_componentAt {image : SampleImage Single} {row : Bytes} {pixel : Nat}
    {decode : List Single} (depth : IsDepth image.bits) (complete : row.length = image.rowBytes)
    (inside : pixel < image.width)
    (enough : image.components ≤ (pairs decode).length) :
    (List.range image.components).mapM (image.componentAt decode row pixel) =
      .ok (List.zipWith image.component (image.pixelSamples row pixel) (pairs decode)) := by
  rw [List.range_eq_range']
  refine mapM_range'_eq_ok ?_ fun index value isValue => ?_
  · rw [List.length_zipWith, length_pixelSamples depth complete inside, Nat.min_eq_left enough]
  obtain ⟨sample, interval, isSample, isInterval, rfl⟩ := List.getElem?_zipWith_eq_some.1 isValue
  rw [pixelSamples, List.getElem?_take] at isSample
  split at isSample
  · rename_i within
    rw [List.getElem?_drop] at isSample
    obtain ⟨same, isRead, isThere, _⟩ :=
      exists_sampleAt depth (bits_le_of_complete complete (sample_lt inside within))
    obtain rfl : same = sample := Option.some.inj (isThere.symm.trans isSample)
    obtain ⟨isLow, isHigh⟩ := getElem?_pairs decode index isInterval
    rw [Nat.zero_add, componentAt, isRead, item_eq_ok isLow, item_eq_ok isHigh]
    rfl
  · cases isSample

section Colors

variable [Analysis Single] [Scalar Double] [Analysis Double] [Precision Single Double]
variable {image : SampleImage Single} {space : ColorSpace Single Double} {decode : List Single}

/-- The colors of pixels of a row are read inside of the row and of the array. -/
theorem refusing_pixelColors (space : ColorSpace Single Double) {row : Bytes} (depth : IsDepth image.bits)
    (complete : row.length = image.rowBytes) (enough : image.components ≤ (pairs decode).length)
    (start count : Nat) (inside : start + count ≤ image.width) :
    refusing (image.pixelColors space (pairs decode) count
        ((unpack image.bits row).drop (start * image.components))) =
      (List.range' start count).mapM (image.pixelAt space decode row) := by
  induction count generalizing start with
  | zero => rfl
  | succ count inductionHypothesis =>
      have others := inductionHypothesis (start + 1) (by omega)
      rw [Nat.succ_mul, ← List.drop_drop] at others
      rw [List.range'_succ, List.mapM_cons, ← others, pixelAt,
        mapM_componentAt depth complete (by omega) enough, pixelColors, refusing_bind, ← pixelSamples]
      refine congrArg (refusing _ >>= ·) (funext fun color => ?_)
      exact refusing_bind _ _

/-- The colors of rows are read inside of each row and of the array. -/
theorem refusing_rowColors (space : ColorSpace Single Double) (depth : IsDepth image.bits)
    (enough : image.components ≤ (pairs decode).length) (start count : Nat) :
    refusing (image.rowColors space (pairs decode) count (image.data.drop (start * image.rowBytes))) =
      List.flatten <$> (List.range' start count).mapM (image.rowAt space decode) := by
  induction count generalizing start with
  | zero => rfl
  | succ count inductionHypothesis =>
      rw [rowColors, List.range'_succ, List.mapM_cons, rowAt, row]
      rcases Nat.lt_or_ge (image.data.drop (start * image.rowBytes)).length image.rowBytes with
        short | complete
      · rw [splitRow_of_lt short]
        rfl
      have others := inductionHypothesis (start + 1)
      rw [Nat.succ_mul, ← List.drop_drop] at others
      have pixels := refusing_pixelColors space depth (List.length_take_of_le complete) enough 0
        image.width (Nat.le_of_eq (Nat.zero_add _))
      rw [Nat.zero_mul, List.drop_zero, ← List.range_eq_range'] at pixels
      rw [splitRow_of_le complete, Limited.ok_bind, Limited.ok_bind, refusing_bind, pixels]
      show _ = List.flatten <$> ((List.range image.width).mapM _ >>= _)
      rw [map_bind]
      refine congrArg (_ >>= ·) (funext fun colors => ?_)
      rw [refusing_bind, others, bind_pure_comp, Functor.map_map, bind_map_left]
      rfl

/-- The colors of an image are those that are found by reading it by positions, none of which is outside
of the row or of the array that is read there. -/
theorem toRgbByPosition_eq (depth : IsDepth image.bits) (space : ColorSpace Single Double) :
    image.toRgbByPosition space = refusing (image.toRgb space) := by
  rw [toRgbByPosition, toRgb, refusing_bind]
  cases isReading : image.readingSpace space with
  | error fault => rfl
  | ok reading =>
      have enough := components_le_length_intervals isReading
      rw [← pairs_decodeArray] at enough
      have colors := refusing_rowColors reading depth enough 0 image.height
      rw [Nat.zero_mul, List.drop_zero, ← List.range_eq_range', pairs_decodeArray] at colors
      show _ = refusing (image.rowColors reading (image.intervals space) image.height image.data >>= _)
      rw [refusing_bind, colors, bind_map_left]
      rfl

/-! ## The number of pixels -/

/-- There are as many colors as pixels. -/
theorem length_of_pixelColors {intervals : List (Single × Single)} {count : Nat} {samples : List Nat}
    {colors : List (Rgb Single)} (seen : image.pixelColors space intervals count samples = .ok colors) :
    colors.length = count := by
  induction count generalizing samples colors with
  | zero =>
      rw [← Except.ok.inj seen]
      rfl
  | succ count inductionHypothesis =>
      simp only [pixelColors, Outcome.bind_eq_ok, Outcome.pure_eq_ok] at seen
      obtain ⟨color, _, others, isRest, rfl⟩ := seen
      rw [List.length_cons, inductionHypothesis isRest]

/-- There are as many colors as the rows have pixels. -/
theorem length_of_rowColors {intervals : List (Single × Single)} {count : Nat} {data : Bytes}
    {colors : List (Rgb Single)} (seen : image.rowColors space intervals count data = .ok colors) :
    colors.length = image.width * count := by
  induction count generalizing data colors with
  | zero =>
      rw [← Except.ok.inj seen]
      rfl
  | succ count inductionHypothesis =>
      simp only [rowColors, Outcome.bind_eq_ok, Outcome.pure_eq_ok] at seen
      obtain ⟨⟨row, rest⟩, _, first, isFirst, others, isRest, rfl⟩ := seen
      rw [List.length_append, length_of_pixelColors isFirst, inductionHypothesis isRest, Nat.mul_succ,
        Nat.add_comm]

/-- The colors of an image are as many as it has pixels. -/
theorem size_of_toRgb {colors : RgbImage Single} (seen : image.toRgb space = .ok colors) :
    colors.width = image.width ∧ colors.height = image.height ∧
      colors.pixels.length = image.width * image.height := by
  simp only [toRgb, Outcome.bind_eq_ok, Outcome.pure_eq_ok] at seen
  obtain ⟨reading, _, pixels, arePixels, rfl⟩ := seen
  exact ⟨rfl, rfl, length_of_rowColors arePixels⟩

/-! ## Refused images -/

variable {fault : Fault}

/-- Pixels of a row are refused where a color is. -/
theorem exists_of_pixelColors_error {row : Bytes} (depth : IsDepth image.bits)
    (complete : row.length = image.rowBytes) (enough : image.components ≤ (pairs decode).length)
    (start count : Nat) (inside : start + count ≤ image.width)
    (refused : image.pixelColors space (pairs decode) count
      ((unpack image.bits row).drop (start * image.components)) = .error fault) :
    ∃ values, values.length = image.components ∧ space.toRgb values = .error fault := by
  induction count generalizing start with
  | zero => cases refused
  | succ count inductionHypothesis =>
      simp only [pixelColors, Outcome.bind_eq_error, Outcome.pure_ne_error, and_false, exists_false,
        or_false] at refused
      rcases refused with atColor | ⟨color, _, later⟩
      · refine ⟨_, ?_, atColor⟩
        rw [List.length_zipWith, ← pixelSamples, length_pixelSamples depth complete (by omega),
          Nat.min_eq_left enough]
      · rw [List.drop_drop, ← Nat.succ_mul] at later
        exact inductionHypothesis (start + 1) (by omega) later

/-- Rows are refused where the data ends too early or a color is refused. -/
theorem exists_of_rowColors_error (depth : IsDepth image.bits)
    (enough : image.components ≤ (pairs decode).length) {count : Nat} {data : Bytes}
    (refused : image.rowColors space (pairs decode) count data = .error fault) :
    data.length < image.rowBytes * count ∨
      ∃ values, values.length = image.components ∧ space.toRgb values = .error fault := by
  induction count generalizing data with
  | zero => cases refused
  | succ count inductionHypothesis =>
      rw [Nat.mul_succ]
      rcases Nat.lt_or_ge data.length image.rowBytes with short | complete
      · exact Or.inl (by omega)
      simp only [rowColors, splitRow_of_le complete, Limited.ok_bind, Outcome.bind_eq_error,
        Outcome.pure_ne_error, and_false, exists_false, or_false] at refused
      rcases refused with atRow | ⟨colors, _, later⟩
      · refine Or.inr (exists_of_pixelColors_error depth (List.length_take_of_le complete) enough 0
          image.width (by omega) ?_)
        rw [Nat.zero_mul, List.drop_zero]
        exact atRow
      · refine (inductionHypothesis later).imp_left fun short => ?_
        rw [List.length_drop] at short
        omega

/-- An image is refused because its components do not fit, its data ends too early, or a color is. -/
theorem causes_of_toRgb_error (depth : IsDepth image.bits)
    (refused : image.toRgb space = .error fault) :
    (image.components ≠ space.componentCount ∧ image.components ≠ 1 ∧ image.components ≠ 3) ∨
      image.data.length < image.rowBytes * image.height ∨
      ∃ reading values, image.readingSpace space = .ok reading ∧ values.length = image.components ∧
        reading.toRgb values = .error fault := by
  cases isReading : image.readingSpace space with
  | error other => exact Or.inl (ne_of_readingSpace_error isReading)
  | ok reading =>
      have enough := components_le_length_intervals isReading
      rw [← pairs_decodeArray] at enough
      rw [toRgb, isReading, Limited.ok_bind, ← pairs_decodeArray] at refused
      simp only [Outcome.bind_eq_error, Outcome.pure_ne_error, and_false, exists_false,
        or_false] at refused
      refine Or.inr ((exists_of_rowColors_error depth enough refused).imp_right ?_)
      rintro ⟨values, same, atColor⟩
      exact ⟨reading, values, rfl, same, atColor⟩

/-! ## Images of every depth -/

/-- Two rows of three pixels of two bits; the first row is filled up with ones. -/
def threeByTwo : SampleImage Float32 :=
  { width := 3, height := 2, bits := 2, components := 1, data := [0b00011011, 0b11100100], decode := none }

end Colors

end SampleImage
end Monochrome
