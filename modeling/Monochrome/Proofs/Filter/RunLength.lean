import Mathlib.Data.List.TakeWhile
import Mathlib.Order.Interval.Set.Defs
import Monochrome.Filter.RunLength

/-!
# Run-length data is read back

The writer cuts bytes into runs and literals.  Each of these pieces has a length byte that the
reader understands, whatever follows, so that the pieces are put together again.  No piece has the
length byte that ends the data, so that what stands behind the end is not read.
-/

namespace Monochrome
namespace RunLength

variable {byte : UInt8} {bytes rest : Bytes} {limit : Nat}

/-! ## Pieces -/

/-- Bytes that one length byte announces: a run of equal bytes, or literal bytes. -/
inductive Piece
  | repetition (byte : UInt8) (count : Nat) (long : 2 ≤ count) (short : count ≤ 128)
  | literal (bytes : Bytes) (nonempty : bytes ≠ []) (short : bytes.length ≤ 128)

namespace Piece

/-- The bytes that a piece stands for. -/
def plain : Piece → Bytes
  | repetition byte count _ _ => List.replicate count byte
  | literal bytes _ _ => bytes

/-- The number that the length byte of a piece tells. -/
def code : Piece → Nat
  | repetition _ count _ _ => 257 - count
  | literal bytes _ _ => bytes.length - 1

/-- The length byte of a piece. -/
def lengthByte (piece : Piece) : UInt8 :=
  piece.code.toUInt8

/-- What follows the length byte of a piece. -/
def body : Piece → Bytes
  | repetition byte _ _ _ => [byte]
  | literal bytes _ _ => bytes

/-- A piece as it is written. -/
def written (piece : Piece) : Bytes :=
  piece.lengthByte :: piece.body

/-- A piece stands for at least one and at most 128 bytes. -/
theorem length_plain_mem (piece : Piece) : piece.plain.length ∈ Set.Icc 1 128 := by
  cases piece with
  | repetition byte count long short =>
      rw [plain, List.length_replicate]
      exact ⟨Nat.le_of_succ_le long, short⟩
  | literal bytes nonempty short => exact ⟨List.length_pos_iff.2 nonempty, short⟩

/-- The code of a piece fits in a byte, and is not the one of the end. -/
theorem code_spec (piece : Piece) : piece.code < 256 ∧ piece.code ≠ 128 := by
  cases piece with
  | repetition byte count long short =>
      simp only [code]
      omega
  | literal bytes nonempty short =>
      simp only [code]
      omega

/-- The length byte of a piece tells its code. -/
theorem toNat_lengthByte (piece : Piece) : piece.lengthByte.toNat = piece.code := by
  rw [lengthByte, Nat.toUInt8, UInt8.toNat_ofNat']
  exact Nat.mod_eq_of_lt piece.code_spec.1

/-- The length byte of a piece does not end the data. -/
theorem lengthByte_ne (piece : Piece) : piece.lengthByte ≠ 128 := by
  intro same
  have isEnd : piece.code = 128 := by rw [← toNat_lengthByte, same]; rfl
  exact piece.code_spec.2 isEnd

/-- The length byte of a piece is below 128 if its code is. -/
theorem lengthByte_lt_iff (piece : Piece) : piece.lengthByte < 128 ↔ piece.code < 128 := by
  rw [UInt8.lt_iff_toNat_lt, toNat_lengthByte]
  rfl

/-- A piece is read as the bytes that it stands for, whatever follows. -/
theorem decode_written (piece : Piece) (rest : Bytes) :
    decode (piece.written ++ rest) = piece.plain ++ decode rest := by
  have notEnd := piece.lengthByte_ne
  have isLiteral := piece.lengthByte_lt_iff
  have value := piece.toNat_lengthByte
  rw [written, List.cons_append, decode.eq_def]
  dsimp only
  rw [if_neg notEnd, value]
  cases piece with
  | repetition byte count long short =>
      simp only [code] at isLiteral ⊢
      rw [if_neg (by rw [isLiteral]; omega)]
      show List.replicate (257 - (257 - count)) byte ++ decode rest = _
      rw [show 257 - (257 - count) = count by omega, plain]
  | literal bytes nonempty short =>
      have positive : 0 < bytes.length := List.length_pos_iff.2 nonempty
      simp only [code] at isLiteral ⊢
      rw [if_pos (by rw [isLiteral]; omega), Nat.sub_add_cancel positive, body, List.take_left,
        List.drop_left, plain]

end Piece

/-- Pieces are read one after the other. -/
theorem decode_flatMap_written (pieces : List Piece) (rest : Bytes) :
    decode (pieces.flatMap Piece.written ++ rest) =
      pieces.flatMap Piece.plain ++ decode rest := by
  induction pieces with
  | nil => rfl
  | cons piece pieces inductionHypothesis =>
      rw [List.flatMap_cons, List.flatMap_cons, List.append_assoc, piece.decode_written,
        inductionHypothesis, List.append_assoc]

/-- Pieces stand for at least as many bytes as they are. -/
theorem length_le_flatMap_plain (pieces : List Piece) :
    pieces.length ≤ (pieces.flatMap Piece.plain).length := by
  induction pieces with
  | nil => rfl
  | cons piece pieces inductionHypothesis =>
      have positive := piece.length_plain_mem.1
      rw [List.flatMap_cons, List.length_append, List.length_cons]
      omega

/-! ## Cutting bytes into pieces -/

/-- The bytes of a run are equal. -/
theorem take_runLength (byte : UInt8) (limit : Nat) (bytes : Bytes) :
    bytes.take (runLength byte limit bytes) = List.replicate (runLength byte limit bytes) byte := by
  have isPart : (bytes.take limit).takeWhile (· == byte) <+: bytes :=
    (List.takeWhile_prefix _).trans (List.take_prefix _ _)
  rw [runLength, List.prefix_iff_eq_take.1 isPart |>.symm, List.eq_replicate_iff]
  exact ⟨rfl, fun other isOther => by simpa using List.mem_takeWhile_imp isOther⟩

/-- A run is no longer than the limit. -/
theorem runLength_le (byte : UInt8) (limit : Nat) (bytes : Bytes) :
    runLength byte limit bytes ≤ limit :=
  ((List.takeWhile_prefix _).length_le).trans (List.length_take_le _ _)

/-- Literals are no longer than the limit, and than what there is. -/
theorem literalLength_le (limit : Nat) (bytes : Bytes) :
    literalLength limit bytes ≤ limit ∧ literalLength limit bytes ≤ bytes.length := by
  fun_induction literalLength limit bytes with
  | case1 | case2 => simp
  | case3 => simp
  | case4 limit first second third rest _ inductionHypothesis =>
      simp only [List.length_cons] at inductionHypothesis ⊢
      omega
  | case5 limit first rest _ inductionHypothesis =>
      simp only [List.length_cons] at inductionHypothesis ⊢
      omega

/-- The writer cuts bytes into pieces, and writes these. -/
theorem exists_pieces (bytes : Bytes) : ∃ pieces : List Piece,
    encodeRuns bytes = pieces.flatMap Piece.written ∧ pieces.flatMap Piece.plain = bytes := by
  fun_induction encodeRuns bytes with
  | case1 => exact ⟨[], rfl, rfl⟩
  | case2 byte bytes run isRun inductionHypothesis =>
      obtain ⟨pieces, areWritten, arePlain⟩ := inductionHypothesis
      have short : run ≤ 128 := Nat.succ_le_succ (runLength_le byte 127 bytes)
      have one : run - 1 = runLength byte 127 bytes := Nat.add_sub_cancel _ _
      have cut : List.replicate run byte ++ bytes.drop (run - 1) = byte :: bytes := by
        rw [show run = run - 1 + 1 by omega, List.replicate_succ, List.cons_append,
          Nat.add_sub_cancel, one, ← take_runLength byte 127 bytes, List.take_append_drop]
      refine ⟨.repetition byte run isRun short :: pieces, ?_, ?_⟩
      · rw [List.flatMap_cons, ← areWritten]
        rfl
      · rw [List.flatMap_cons, arePlain]
        exact cut
  | case3 byte bytes run notRun length inductionHypothesis =>
      obtain ⟨pieces, areWritten, arePlain⟩ := inductionHypothesis
      obtain ⟨withinLimit, withinBytes⟩ := literalLength_le 128 (byte :: bytes)
      have isLength : (byte :: bytes.take (length - 1)).length = length := by
        have positive : 1 ≤ length := Nat.le_max_left _ _
        simp only [List.length_cons, List.length_take] at withinBytes ⊢
        omega
      have short : (byte :: bytes.take (length - 1)).length ≤ 128 := by omega
      refine ⟨.literal _ (List.cons_ne_nil _ _) short :: pieces, ?_, ?_⟩
      · rw [List.flatMap_cons, ← areWritten, Piece.written, Piece.lengthByte, Piece.code, isLength]
        rfl
      · rw [List.flatMap_cons, arePlain]
        exact congrArg (byte :: ·) (List.take_append_drop _ _)

/-- The byte 128 ends the data. -/
theorem decode_end (rest : Bytes) : decode (128 :: rest) = [] := by
  rw [decode.eq_def]
  exact if_pos rfl

/-- Runs and literals before the end stand for the bytes that they were cut from. -/
theorem decode_encodeRuns_end (bytes after : Bytes) :
    decode (encodeRuns bytes ++ 128 :: after) = bytes := by
  obtain ⟨pieces, areWritten, arePlain⟩ := exists_pieces bytes
  rw [areWritten, decode_flatMap_written, decode_end, arePlain, List.append_nil]

/-- Run-length data stands for the bytes that were encoded. -/
theorem decode_encode (bytes : Bytes) : decode (encode bytes) = bytes :=
  decode_encodeRuns_end bytes []

/-- Run-length data is a list of pieces, not more than there are bytes, and the end: each piece
stands for one to 128 bytes, and its length byte is not the one of the end.  The data stands for
the bytes that were encoded, whatever follows it. -/
theorem decode_encode_append (bytes : Bytes) :
    (∃ pieces : List Piece,
      encode bytes = pieces.flatMap Piece.written ++ [128] ∧
      pieces.flatMap Piece.plain = bytes ∧
      pieces.length ≤ bytes.length ∧
      ∀ piece ∈ pieces, piece.plain.length ∈ Set.Icc 1 128 ∧ piece.lengthByte ≠ 128) ∧
    ∀ after, decode (encode bytes ++ after) = bytes := by
  obtain ⟨pieces, areWritten, arePlain⟩ := exists_pieces bytes
  refine ⟨⟨pieces, ?written, arePlain, ?fewer, ?fits⟩, fun after => ?readBack⟩
  case written => rw [encode, areWritten]
  case fewer => exact (length_le_flatMap_plain pieces).trans_eq (congrArg List.length arePlain)
  case fits => exact fun piece _ => ⟨piece.length_plain_mem, piece.lengthByte_ne⟩
  case readBack =>
    rw [encode, List.append_assoc]
    exact decode_encodeRuns_end bytes after

end RunLength
end Monochrome
