import Mathlib.Data.List.Forall2
import Monochrome.Image.Raster
import Monochrome.Proofs.Filter.Bits
import Monochrome.Proofs.Outcome

/-!
# Samples in rows

The samples of a row follow each other without gaps, most significant bit first, and the row is filled up
to whole bytes.  A single sample is read by its position: from a byte or two, or from some bits of a byte.
Here every position is checked to be inside of the row, and the bits to be inside of the byte.  This is the
sample that is found by taking the whole row apart, and the one that was packed there.  The rows of an
image follow each other in its data, so that each of them is found after the bytes of those before it.
-/

namespace Monochrome
namespace SampleImage

/-- Why an image that is read by positions is not seen. -/
inductive Stop
  /-- A position is not inside of what is read there. -/
  | outside
  /-- The image is refused. -/
  | refused (fault : Fault)

/-- What stands at a position of a list. -/
def item {α : Type} (list : List α) (position : Nat) : Except Stop α :=
  list[position]?.elim (.error .outside) .ok

/-- The sample at an index of a row. -/
def sampleAt (bits : Nat) (row : Bytes) (index : Nat) : Except Stop Nat :=
  if bits = 8 then do
    let byte ← item row index
    return byte.toNat
  else if bits = 16 then do
    let high ← item row (2 * index)
    let low ← item row (2 * index + 1)
    return 256 * high.toNat + low.toNat
  else do
    let byte ← item row (index * bits / 8)
    if bits + index * bits % 8 ≤ 8 then
      return (byte.toNat >>> (8 - bits - index * bits % 8)) &&& (1 <<< bits - 1)
    else .error .outside

/-- The numbers of bits that a sample may have. -/
def IsDepth (bits : Nat) : Prop :=
  bits ∈ [1, 2, 4, 8, 16]

/-- Whether a row holds values of some bits, most significant bit first and without gaps, and is filled up
to whole bytes. -/
def IsPacked (bits : Nat) (values : List Nat) (row : Bytes) : Prop :=
  ∃ filling : Bits, filling.length < 8 ∧
    Bits.ofBytesHigh row = values.flatMap (Bits.highFirst bits) ++ filling

section Positions

variable {α : Type} {list : List α} {position : Nat} {value : α}

/-- What stands at a position that there is. -/
theorem item_eq_ok (isThere : list[position]? = some value) : item list position = .ok value := by
  rw [item, isThere]
  rfl

end Positions

variable {bits : Nat} {row : Bytes} {index : Nat}

/-- A sample has some bits. -/
theorem IsDepth.pos (depth : IsDepth bits) : 0 < bits := by
  simp only [IsDepth, List.mem_cons, List.not_mem_nil, or_false] at depth
  omega

/-! ## Bits of bytes -/

/-- The bits of a number are those of its quotient, and then those of its rest. -/
theorem highFirst_add (low high value : Nat) :
    Bits.highFirst (low + high) value =
      Bits.highFirst high (value / 2 ^ low) ++ Bits.highFirst low value := by
  rw [Bits.highFirst, Bits.lowFirst_add, List.reverse_append]
  rfl

/-- The bits of a number from a place on are those of its rest. -/
theorem drop_highFirst {width skipped : Nat} (short : skipped ≤ width) (value : Nat) :
    (Bits.highFirst width value).drop skipped = Bits.highFirst (width - skipped) value := by
  obtain ⟨kept, rfl⟩ := Nat.exists_eq_add_of_le' short
  rw [Nat.add_sub_cancel, highFirst_add, List.drop_left' (Bits.length_highFirst _ _)]

/-- The first bits of a number are those of its quotient. -/
theorem take_highFirst {width kept : Nat} (short : kept ≤ width) (value : Nat) :
    (Bits.highFirst width value).take kept = Bits.highFirst kept (value / 2 ^ (width - kept)) := by
  obtain ⟨rest, rfl⟩ := Nat.exists_eq_add_of_le' short
  rw [Nat.add_sub_cancel, highFirst_add, List.take_left' (Bits.length_highFirst _ _)]

/-- The number that the bits of a number spell. -/
theorem valueHigh_highFirst (width value : Nat) :
    Bits.valueHigh (Bits.highFirst width value) = value % 2 ^ width := by
  rw [Bits.highFirst, Bits.valueHigh_reverse, Bits.valueLow_lowFirst]

/-- The first bits of a number are those of its rest. -/
theorem highFirst_mod (width value : Nat) :
    Bits.highFirst width (value % 2 ^ width) = Bits.highFirst width value := by
  rw [Bits.highFirst, Bits.lowFirst_mod]
  rfl

/-- The bits of two bytes are those of the number that they spell. -/
theorem highFirst_pair (high low : UInt8) :
    Bits.highFirst 16 (256 * high.toNat + low.toNat) =
      Bits.highFirst 8 high.toNat ++ Bits.highFirst 8 low.toNat := by
  have upper : (256 * high.toNat + low.toNat) / 2 ^ 8 = high.toNat := by
    have bound := low.toNat_lt
    omega
  have lower : Bits.highFirst 8 (256 * high.toNat + low.toNat) = Bits.highFirst 8 low.toNat := by
    rw [← highFirst_mod, ← highFirst_mod 8 low.toNat]
    congr 1
    omega
  rw [show 16 = 8 + 8 from rfl, highFirst_add, upper, lower]

/-- The bits of bytes begin with those of the first. -/
theorem ofBytesHigh_cons (byte : UInt8) (bytes : Bytes) :
    Bits.ofBytesHigh (byte :: bytes) = Bits.highFirst 8 byte.toNat ++ Bits.ofBytesHigh bytes :=
  List.flatMap_cons

/-- The bits of bytes from a byte on. -/
theorem drop_ofBytesHigh (row : Bytes) (position : Nat) :
    (Bits.ofBytesHigh row).drop (8 * position) = Bits.ofBytesHigh (row.drop position) := by
  induction row generalizing position with
  | nil => simp [Bits.ofBytesHigh]
  | cons byte row inductionHypothesis =>
      cases position with
      | zero => rfl
      | succ position =>
          rw [ofBytesHigh_cons, Nat.mul_succ, Nat.add_comm, ← List.drop_drop,
            List.drop_left' (Bits.length_highFirst _ _), inductionHypothesis, List.drop_succ_cons]

/-- The bits of bytes from a byte on begin with those of that byte. -/
theorem drop_ofBytesHigh_of_byte {byte : UInt8} {position : Nat} (isByte : row[position]? = some byte) :
    (Bits.ofBytesHigh row).drop (8 * position) =
      Bits.highFirst 8 byte.toNat ++ Bits.ofBytesHigh (row.drop (position + 1)) := by
  obtain ⟨inside, isByte⟩ := List.getElem?_eq_some_iff.1 isByte
  rw [drop_ofBytesHigh, List.drop_eq_getElem_cons inside, ofBytesHigh_cons, isByte]

/-- Bits that stand in one byte of a row. -/
theorem bits_of_byte {byte : UInt8} {position start : Nat} (isByte : row[position]? = some byte)
    (fits : bits + start ≤ 8) :
    ((Bits.ofBytesHigh row).drop (8 * position + start)).take bits =
      Bits.highFirst bits (byte.toNat / 2 ^ (8 - bits - start)) := by
  have inByte : bits ≤ ((Bits.highFirst 8 byte.toNat).drop start).length := by
    rw [List.length_drop, Bits.length_highFirst]
    omega
  rw [← List.drop_drop, drop_ofBytesHigh_of_byte isByte,
    List.drop_append_of_le_length (by rw [Bits.length_highFirst]; omega),
    List.take_append_of_le_length inByte, drop_highFirst (by omega), take_highFirst (by omega),
    Nat.sub_right_comm]

/-- Bits that stand in two bytes of a row. -/
theorem bits_of_pair {high low : UInt8} {position : Nat} (isHigh : row[position]? = some high)
    (isLow : row[position + 1]? = some low) :
    ((Bits.ofBytesHigh row).drop (8 * position)).take 16 =
      Bits.highFirst 16 (256 * high.toNat + low.toNat) := by
  have behind := drop_ofBytesHigh_of_byte isLow
  rw [drop_ofBytesHigh] at behind
  rw [drop_ofBytesHigh_of_byte isHigh, behind, ← List.append_assoc, ← highFirst_pair,
    List.take_left' (Bits.length_highFirst _ _)]

/-- The sample at an index is spelled by the bits from its place on. -/
theorem sampleAt_eq (depth : IsDepth bits) (inside : index * bits + bits ≤ 8 * row.length) :
    sampleAt bits row index =
      .ok (Bits.valueHigh (((Bits.ofBytesHigh row).drop (index * bits)).take bits)) := by
  have inByte (fits : bits + index * bits % 8 ≤ 8) : ∃ byte, row[index * bits / 8]? = some byte ∧
      Bits.valueHigh (((Bits.ofBytesHigh row).drop (index * bits)).take bits) =
        byte.toNat / 2 ^ (8 - bits - index * bits % 8) % 2 ^ bits := by
    have positive := depth.pos
    have isThere : index * bits / 8 < row.length := by omega
    have isByte := List.getElem?_eq_getElem isThere
    have isSlice := bits_of_byte isByte fits
    rw [Nat.div_add_mod] at isSlice
    exact ⟨_, isByte, by rw [isSlice, valueHigh_highFirst]⟩
  have inPart (fits : bits + index * bits % 8 ≤ 8) (notByte : bits ≠ 8) (notPair : bits ≠ 16) :
      sampleAt bits row index =
        .ok (Bits.valueHigh (((Bits.ofBytesHigh row).drop (index * bits)).take bits)) := by
    obtain ⟨byte, isByte, isValue⟩ := inByte fits
    rw [isValue, sampleAt, if_neg notByte, if_neg notPair, item_eq_ok isByte]
    show (if _ then Except.ok _ else _) = _
    rw [if_pos fits, Nat.one_shiftLeft, Nat.and_two_pow_sub_one_eq_mod, Nat.shiftRight_eq_div_pow]
  simp only [IsDepth, List.mem_cons, List.not_mem_nil, or_false] at depth
  rcases depth with rfl | rfl | rfl | rfl | rfl
  · exact inPart (by omega) (by decide) (by decide)
  · exact inPart (by omega) (by decide) (by decide)
  · exact inPart (by omega) (by decide) (by decide)
  · obtain ⟨byte, isByte, isValue⟩ := inByte (by omega)
    rw [Nat.mul_div_cancel _ (by decide)] at isByte
    rw [isValue, Nat.mul_mod_left, sampleAt, if_pos rfl, item_eq_ok isByte, Nat.pow_zero, Nat.div_one,
      Nat.mod_eq_of_lt byte.toNat_lt]
    rfl
  · have isHigh := List.getElem?_eq_getElem (show 2 * index < row.length by omega)
    have isLow := List.getElem?_eq_getElem (show 2 * index + 1 < row.length by omega)
    have bounds := And.intro row[2 * index].toNat_lt row[2 * index + 1].toNat_lt
    rw [show index * 16 = 8 * (2 * index) by omega, bits_of_pair isHigh isLow, valueHigh_highFirst,
      Nat.mod_eq_of_lt (by omega), sampleAt, if_neg (by decide), if_pos rfl, item_eq_ok isHigh,
      item_eq_ok isLow]
    rfl

/-! ## Packed rows -/

/-- The bits of the values before one, and of the value. -/
theorem bits_of_value {values : List Nat} {value : Nat} {rest : Bits}
    (isValue : values[index]? = some value) :
    ((values.flatMap (Bits.highFirst bits) ++ rest).drop (index * bits)).take bits =
      Bits.highFirst bits value := by
  induction values generalizing index with
  | nil => cases isValue
  | cons first values inductionHypothesis =>
      rw [List.flatMap_cons, List.append_assoc]
      cases index with
      | zero =>
          obtain rfl : first = value := by simpa using isValue
          rw [Nat.zero_mul, List.drop_zero, List.take_left' (Bits.length_highFirst _ _)]
      | succ index =>
          rw [Nat.succ_mul, Nat.add_comm, ← List.drop_drop,
            List.drop_left' (Bits.length_highFirst _ _)]
          exact inductionHypothesis (by simpa using isValue)

namespace IsPacked

variable {values : List Nat}

/-- The number of bits of values that are packed together. -/
theorem length_bits (values : List Nat) :
    (values.flatMap (Bits.highFirst bits)).length = values.length * bits := by
  simp [List.length_flatMap]

/-- A packed row has as many bytes as the bits of its values take. -/
theorem length_eq (isPacked : IsPacked bits values row) :
    row.length = (values.length * bits + 7) / 8 := by
  obtain ⟨filling, short, areBits⟩ := isPacked
  have lengths := congrArg List.length areBits
  rw [Bits.length_ofBytesHigh, List.length_append, length_bits] at lengths
  omega

/-- The sample at an index of a packed row is the value that was packed there. -/
theorem sampleAt_eq_ok (isPacked : IsPacked bits values row) (depth : IsDepth bits) {value : Nat}
    (isValue : values[index]? = some value) (small : value < 2 ^ bits) :
    sampleAt bits row index = .ok value := by
  have inside := (List.getElem?_eq_some_iff.1 isValue).1
  obtain ⟨filling, short, areBits⟩ := isPacked
  have lengths := congrArg List.length areBits
  rw [Bits.length_ofBytesHigh, List.length_append, length_bits] at lengths
  have room : (index + 1) * bits ≤ values.length * bits := Nat.mul_le_mul_right _ inside
  rw [Nat.succ_mul] at room
  rw [sampleAt_eq depth (by omega), areBits, bits_of_value isValue, valueHigh_highFirst,
    Nat.mod_eq_of_lt small]

end IsPacked

/-! ## Rows that are taken apart -/

/-- The bits of a number are those of its digits, each of which has some bits. -/
theorem highFirst_mul (bits count value : Nat) :
    Bits.highFirst (count * bits) value =
      ((List.range count).map fun index =>
        value / 2 ^ (count * bits - bits - index * bits) % 2 ^ bits).flatMap (Bits.highFirst bits) := by
  induction count with
  | zero =>
      rw [Nat.zero_mul]
      rfl
  | succ count inductionHypothesis =>
      have places (index : Nat) :
          count * bits - (index + 1) * bits = count * bits - bits - index * bits := by
        rw [Nat.succ_mul, Nat.add_comm, Nat.sub_add_eq]
      rw [Nat.succ_mul, List.range_succ_eq_map, List.map_cons, List.map_map, List.flatMap_cons,
        highFirst_mod, Nat.zero_mul, Nat.sub_zero, Nat.add_sub_cancel, highFirst_add,
        inductionHypothesis]
      simp only [Function.comp_def, Nat.succ_eq_add_one, places]

/-- The bits of a byte are those of the samples in it. -/
theorem highFirst_eq_flatMap_unpackByte (whole : 8 / bits * bits = 8) (byte : UInt8) :
    Bits.highFirst 8 byte.toNat = (unpackByte bits byte).flatMap (Bits.highFirst bits) := by
  have areDigits := highFirst_mul bits (8 / bits) byte.toNat
  rwa [whole] at areDigits

/-- The bits of pairs of bytes are those of the samples that they are; a last single byte is left. -/
theorem ofBytesHigh_eq_flatMap_unpackPairs (row : Bytes) : ∃ filling : Bits, filling.length ≤ 8 ∧
    Bits.ofBytesHigh row = (unpackPairs row).flatMap (Bits.highFirst 16) ++ filling := by
  fun_induction unpackPairs row with
  | case1 high low rest inductionHypothesis =>
      obtain ⟨filling, short, areBits⟩ := inductionHypothesis
      refine ⟨filling, short, ?_⟩
      rw [ofBytesHigh_cons, ofBytesHigh_cons, areBits, List.flatMap_cons, highFirst_pair,
        List.append_assoc, List.append_assoc]
  | case2 row noPair =>
      match row, noPair with
      | [], _ => exact ⟨[], by decide, rfl⟩
      | [byte], _ => exact ⟨Bits.highFirst 8 byte.toNat, by simp, by simp [Bits.ofBytesHigh]⟩
      | high :: low :: rest, noPair => exact absurd rfl (noPair high low rest)

/-- The bits of a row are those of its samples, but for fewer than one more sample has. -/
theorem ofBytesHigh_eq_flatMap_unpack (depth : IsDepth bits) (row : Bytes) :
    ∃ filling : Bits, filling.length < bits ∧
      Bits.ofBytesHigh row = (unpack bits row).flatMap (Bits.highFirst bits) ++ filling := by
  have inBytes (part : bits = 1 ∨ bits = 2 ∨ bits = 4) : ∃ filling : Bits, filling.length < bits ∧
      Bits.ofBytesHigh row = (unpack bits row).flatMap (Bits.highFirst bits) ++ filling := by
    refine ⟨[], by simp; omega, ?_⟩
    rw [unpack, if_neg (by omega), if_neg (by omega), List.append_nil, List.flatMap_assoc,
      Bits.ofBytesHigh]
    have whole : 8 / bits * bits = 8 := by rcases part with rfl | rfl | rfl <;> rfl
    exact congrArg (row.flatMap ·) (funext (highFirst_eq_flatMap_unpackByte whole))
  simp only [IsDepth, List.mem_cons, List.not_mem_nil, or_false] at depth
  rcases depth with rfl | rfl | rfl | rfl | rfl
  · exact inBytes (by decide)
  · exact inBytes (by decide)
  · exact inBytes (by decide)
  · refine ⟨[], by decide, ?_⟩
    rw [unpack, if_pos rfl, List.append_nil, List.flatMap_map, Bits.ofBytesHigh]
  · obtain ⟨filling, short, areBits⟩ := ofBytesHigh_eq_flatMap_unpackPairs row
    exact ⟨filling, by omega, areBits⟩

/-- Pairs of bytes are numbers of as many bits. -/
theorem lt_of_mem_unpackPairs {value : Nat} (isSample : value ∈ unpackPairs row) : value < 2 ^ 16 := by
  fun_induction unpackPairs row with
  | case1 high low rest inductionHypothesis =>
      rcases List.mem_cons.1 isSample with rfl | isLater
      · have bounds := And.intro high.toNat_lt low.toNat_lt
        omega
      · exact inductionHypothesis isLater
  | case2 row noPair => cases isSample

/-- Samples that are taken out of a row have no more bits than they are given. -/
theorem lt_of_mem_unpack {value : Nat} (isSample : value ∈ unpack bits row) : value < 2 ^ bits := by
  rw [unpack] at isSample
  split at isSample
  · rename_i single
    obtain ⟨byte, -, rfl⟩ := List.mem_map.1 isSample
    rw [single]
    exact byte.toNat_lt
  split at isSample
  · rename_i pair
    rw [pair]
    exact lt_of_mem_unpackPairs isSample
  · obtain ⟨byte, -, inByte⟩ := List.mem_flatMap.1 isSample
    obtain ⟨place, -, rfl⟩ := List.mem_map.1 inByte
    exact Nat.mod_lt _ (Nat.two_pow_pos bits)

/-- The sample at an index of a row is the one that is found by taking the row apart. -/
theorem exists_sampleAt (depth : IsDepth bits) (inside : index * bits + bits ≤ 8 * row.length) :
    ∃ value, sampleAt bits row index = .ok value ∧ (unpack bits row)[index]? = some value ∧
      value < 2 ^ bits := by
  obtain ⟨filling, short, areBits⟩ := ofBytesHigh_eq_flatMap_unpack depth row
  have lengths := congrArg List.length areBits
  rw [Bits.length_ofBytesHigh, List.length_append, IsPacked.length_bits] at lengths
  have isThere : index < (unpack bits row).length := by
    refine Nat.lt_of_mul_lt_mul_right (a := bits) ?_
    omega
  have isValue := List.getElem?_eq_getElem isThere
  have small := lt_of_mem_unpack (List.getElem_mem isThere)
  refine ⟨_, ?_, isValue, small⟩
  rw [sampleAt_eq depth inside, areBits, bits_of_value isValue, valueHigh_highFirst,
    Nat.mod_eq_of_lt small]

/-! ## Rows of images -/

section Rows

variable {Single : Type} {image : SampleImage Single} {data : Bytes} {pixel : Nat}

/-- A row is split off if there are enough bytes. -/
theorem splitRow_of_le (enough : image.rowBytes ≤ data.length) :
    image.splitRow data = .ok (data.take image.rowBytes, data.drop image.rowBytes) :=
  if_pos (List.length_take_of_le enough)

/-- No row is split off if there are not enough bytes. -/
theorem splitRow_of_lt (short : data.length < image.rowBytes) :
    image.splitRow data = .error image.shortData := by
  refine if_neg ?_
  rw [List.length_take]
  omega

/-- A row that is found is as long as the image says. -/
theorem length_of_row {index : Nat} {row : Bytes} (isRow : image.row index = .ok row) :
    row.length = image.rowBytes := by
  simp only [SampleImage.row, Outcome.bind_eq_ok, Outcome.pure_eq_ok] at isRow
  obtain ⟨⟨found, rest⟩, isFound, rfl⟩ := isRow
  rcases Nat.lt_or_ge (image.data.drop (index * image.rowBytes)).length image.rowBytes with
    short | complete
  · rw [splitRow_of_lt short] at isFound
    cases isFound
  · rw [splitRow_of_le complete] at isFound
    rw [← (Prod.mk.inj (Except.ok.inj isFound)).1, List.length_take_of_le complete]

/-- The samples of a pixel of a row, taken apart. -/
def pixelSamples (image : SampleImage Single) (row : Bytes) (pixel : Nat) : List Nat :=
  ((unpack image.bits row).drop (pixel * image.components)).take image.components

/-- The bits of a sample are inside of a row that is as long as the image says. -/
theorem bits_le_of_complete (complete : row.length = image.rowBytes)
    (inside : index < image.width * image.components) :
    index * image.bits + image.bits ≤ 8 * row.length := by
  have room := Nat.mul_le_mul_right image.bits (Nat.succ_le_of_lt inside)
  rw [Nat.succ_mul] at room
  rw [complete, rowBytes]
  omega

/-- The samples of the pixels of a row are among those of the row. -/
theorem sample_lt (inside : pixel < image.width) (within : index < image.components) :
    pixel * image.components + index < image.width * image.components := by
  have room := Nat.mul_le_mul_right image.components (Nat.succ_le_of_lt inside)
  rw [Nat.succ_mul] at room
  omega

/-- A row that is as long as the image says holds the samples of each pixel. -/
theorem length_pixelSamples (depth : IsDepth image.bits) (complete : row.length = image.rowBytes)
    (inside : pixel < image.width) : (image.pixelSamples row pixel).length = image.components := by
  rw [pixelSamples, List.length_take, List.length_drop, Nat.min_eq_left]
  rcases Nat.eq_zero_or_pos image.components with none | some
  · omega
  have within : image.components - 1 < image.components := by omega
  obtain ⟨_, _, isThere, _⟩ :=
    exists_sampleAt depth (bits_le_of_complete complete (sample_lt inside within))
  have last := (List.getElem?_eq_some_iff.1 isThere).1
  omega

/-! ## Packed images -/

/-- Whether the data of an image begins with the given values, row after row. -/
structure Packs (image : SampleImage Single) (rows : List (List Nat)) : Prop where
  /-- There are as many rows as the image is high. -/
  height : rows.length = image.height
  /-- There are as many values in each row as its pixels have components. -/
  width : ∀ values ∈ rows, values.length = image.width * image.components
  /-- No value has more bits than a sample. -/
  small : ∀ values ∈ rows, ∀ value ∈ values, value < 2 ^ image.bits
  /-- The values of each row are packed, and the rows follow each other. -/
  packed : ∃ packed, List.Forall₂ (IsPacked image.bits) rows packed ∧ packed.flatten <+: image.data

/-- A packed row is found after as many bytes as the rows before it have. -/
theorem isPacked_of_forall₂ {bits size : Nat} {rows : List (List Nat)} {packed : List Bytes}
    {data : Bytes} (arePacked : List.Forall₂ (IsPacked bits) rows packed)
    (sizes : ∀ values ∈ rows, (values.length * bits + 7) / 8 = size)
    (begins : packed.flatten <+: data) {values : List Nat}
    (isRow : rows[index]? = some values) :
    size ≤ (data.drop (index * size)).length ∧
      IsPacked bits values ((data.drop (index * size)).take size) := by
  induction arePacked generalizing data index with
  | nil => cases isRow
  | @cons first row rows packed isPacked _ inductionHypothesis =>
      obtain ⟨rest, rfl⟩ := begins
      obtain ⟨isSize, atRest⟩ := List.forall_mem_cons.1 sizes
      have atFirst := isPacked.length_eq.trans isSize
      rw [List.flatten_cons, List.append_assoc]
      cases index with
      | zero =>
          obtain rfl : first = values := by simpa using isRow
          rw [Nat.zero_mul, List.drop_zero, List.take_left' atFirst, List.length_append, atFirst]
          exact ⟨Nat.le_add_right _ _, isPacked⟩
      | succ index =>
          rw [Nat.succ_mul, Nat.add_comm, ← List.drop_drop, List.drop_left' atFirst]
          exact inductionHypothesis atRest (List.prefix_append _ _) (by simpa using isRow)

/-- Each row of packed values is found, and its samples are the values. -/
theorem Packs.exists_row {rows : List (List Nat)} (packs : image.Packs rows)
    (depth : IsDepth image.bits) {index : Nat} {values : List Nat}
    (isRow : rows[index]? = some values) : ∃ row, image.row index = .ok row ∧
      ∀ (place value : Nat), values[place]? = some value →
        sampleAt image.bits row place = .ok value := by
  obtain ⟨packed, arePacked, begins⟩ := packs.packed
  have sizes : ∀ values ∈ rows, (values.length * image.bits + 7) / 8 = image.rowBytes := by
    intro values isMember
    rw [packs.width values isMember, rowBytes]
  obtain ⟨enough, isPacked⟩ := isPacked_of_forall₂ arePacked sizes begins isRow
  refine ⟨_, by rw [row, splitRow_of_le enough]; rfl, fun place value isValue => ?_⟩
  exact isPacked.sampleAt_eq_ok depth isValue
    (packs.small values (List.mem_of_getElem? isRow) value (List.mem_of_getElem? isValue))

end Rows

end SampleImage
end Monochrome
