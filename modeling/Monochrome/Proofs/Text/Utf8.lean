import Mathlib.Tactic.SplitIfs
import Monochrome.Text.Utf8

/-!
# Text read back

A text that is written as bytes is read back as it was: the sequence of each character is read as
that character, whatever follows it.
-/

namespace Monochrome
namespace Text

/-- The values of bytes that continue a sequence. -/
theorem isContinuation_iff {byte : UInt8} :
    isContinuation byte = true ↔ 0x80 ≤ byte.toNat ∧ byte.toNat ≤ 0xBF := by
  simp [isContinuation, UInt8.le_iff_toNat_le]

/-- The values of bytes that can stand second in a sequence. -/
theorem isSecond_iff {first second : UInt8} :
    isSecond first second = true ↔ 0x80 ≤ second.toNat ∧ second.toNat ≤ 0xBF ∧
      (first.toNat = 0xE0 → 0xA0 ≤ second.toNat) ∧ (first.toNat = 0xED → second.toNat ≤ 0x9F) ∧
      (first.toNat = 0xF0 → 0x90 ≤ second.toNat) ∧ (first.toNat = 0xF4 → second.toNat ≤ 0x8F) := by
  unfold isSecond
  simp only [beq_iff_eq, ← UInt8.toNat_inj]
  split_ifs <;> simp_all [UInt8.le_iff_toNat_le, isContinuation_iff] <;> omega

/-- A sequence of one byte is read. -/
theorem decode_one {first : UInt8} (small : first.toNat < 0x80) (rest : Bytes) :
    decode (first :: rest) = Char.ofNat first.toNat :: decode rest := by
  have isOne : first < 0x80 := UInt8.lt_iff_toNat_lt.2 small
  rw [decode.eq_def]
  simp [isOne]

/-- A sequence of two bytes is read. -/
theorem decode_two {first second : UInt8}
    (isFirst : 0xC2 ≤ first.toNat ∧ first.toNat ≤ 0xDF)
    (continues : isContinuation second = true) (rest : Bytes) :
    decode (first :: second :: rest) =
      Char.ofNat (64 * (first.toNat % 32) + second.toNat % 64) :: decode rest := by
  have notOne : ¬first < 0x80 := by
    rw [UInt8.lt_iff_toNat_lt]; simp; omega
  have isTwo : 0xC2 ≤ first ∧ first ≤ 0xDF := by
    simpa [UInt8.le_iff_toNat_le] using isFirst
  rw [decode.eq_def]
  simp [notOne, isTwo, continues, extend]

/-- A sequence of three bytes is read. -/
theorem decode_three {first second third : UInt8}
    (isFirst : 0xE0 ≤ first.toNat ∧ first.toNat ≤ 0xEF)
    (followed : isSecond first second = true)
    (continues : isContinuation third = true) (rest : Bytes) :
    decode (first :: second :: third :: rest) =
      Char.ofNat (64 * (64 * (first.toNat % 16) + second.toNat % 64) + third.toNat % 64) ::
        decode rest := by
  have notOne : ¬first < 0x80 := by
    rw [UInt8.lt_iff_toNat_lt]; simp; omega
  have notTwo : ¬first ≤ 0xDF := by
    rw [UInt8.le_iff_toNat_le]; simp; omega
  have isThree : 0xE0 ≤ first ∧ first ≤ 0xEF := by
    simpa [UInt8.le_iff_toNat_le] using isFirst
  rw [decode.eq_def]
  simp [notOne, notTwo, isThree, followed, continues, extend]

/-- A sequence of four bytes is read. -/
theorem decode_four {first second third fourth : UInt8}
    (isFirst : 0xF0 ≤ first.toNat ∧ first.toNat ≤ 0xF4)
    (followed : isSecond first second = true)
    (continues : isContinuation third = true)
    (ends : isContinuation fourth = true) (rest : Bytes) :
    decode (first :: second :: third :: fourth :: rest) =
      Char.ofNat (64 * (64 * (64 * (first.toNat % 8) + second.toNat % 64) + third.toNat % 64) +
        fourth.toNat % 64) :: decode rest := by
  have notOne : ¬first < 0x80 := by
    rw [UInt8.lt_iff_toNat_lt]; simp; omega
  have notTwo : ¬first ≤ 0xDF := by
    rw [UInt8.le_iff_toNat_le]; simp; omega
  have notThree : ¬first ≤ 0xEF := by
    rw [UInt8.le_iff_toNat_le]; simp; omega
  have isFour : 0xF0 ≤ first ∧ first ≤ 0xF4 := by
    simpa [UInt8.le_iff_toNat_le] using isFirst
  rw [decode.eq_def]
  simp [notOne, notTwo, notThree, isFour, followed, continues, ends, extend]

/-- The value of a character is no surrogate and at most the last code point. -/
theorem toNat_bounds (character : Char) :
    character.val.toNat < 0xD800 ∨
      0xDFFF < character.val.toNat ∧ character.val.toNat < 0x110000 :=
  character.valid

/-- The bytes of a character are read as that character. -/
theorem decode_utf8EncodeChar (character : Char) (rest : Bytes) :
    decode (String.utf8EncodeChar character ++ rest) = character :: decode rest := by
  have bounds := toNat_bounds character
  have same : Char.ofNat character.val.toNat = character := Char.ofNat_toNat character
  unfold String.utf8EncodeChar
  dsimp only
  generalize character.val.toNat = value at bounds same
  rw [← same]
  have toNat : ∀ number < 256, (UInt8.ofNat number).toNat = number :=
    fun number small => UInt8.toNat_ofNat_of_lt' small
  split_ifs with one two three
  · have small := toNat value (by omega)
    rw [List.singleton_append, decode_one (by omega), small]
  · have first := toNat (value / 64 % 32 + 0xC0) (by omega)
    have second := toNat (value % 64 + 0x80) (by omega)
    rw [List.cons_append, List.singleton_append,
      decode_two (by omega) (isContinuation_iff.2 (by omega)), first, second]
    congr 2
    omega
  · have first := toNat (value / 4096 % 16 + 0xE0) (by omega)
    have second := toNat (value / 64 % 64 + 0x80) (by omega)
    have third := toNat (value % 64 + 0x80) (by omega)
    rw [List.cons_append, List.cons_append, List.singleton_append,
      decode_three (by omega) (isSecond_iff.2 (by omega)) (isContinuation_iff.2 (by omega)),
      first, second, third]
    congr 2
    omega
  · have first := toNat (value / 262144 % 8 + 0xF0) (by omega)
    have second := toNat (value / 4096 % 64 + 0x80) (by omega)
    have third := toNat (value / 64 % 64 + 0x80) (by omega)
    have fourth := toNat (value % 64 + 0x80) (by omega)
    rw [List.cons_append, List.cons_append, List.cons_append, List.singleton_append,
      decode_four (by omega) (isSecond_iff.2 (by omega)) (isContinuation_iff.2 (by omega))
        (isContinuation_iff.2 (by omega)), first, second, third, fourth]
    congr 2
    omega

/-- A text is read back from its bytes. -/
theorem ofBytes_toBytes (text : String) : ofBytes (toBytes text) = text := by
  have chars : decode (toBytes text) = text.toList := by
    unfold toBytes
    induction text.toList with
    | nil => simp [decode]
    | cons character more inductionHypothesis =>
        rw [List.flatMap_cons, decode_utf8EncodeChar, inductionHypothesis]
  rw [ofBytes, chars, String.ofList_toList]

/-- A text in ASCII is read back from its bytes. -/
theorem ofBytes_ascii {text : String} (isAscii : Bytes.ascii text = toBytes text) :
    ofBytes (Bytes.ascii text) = text := by
  rw [isAscii, ofBytes_toBytes]

end Text
end Monochrome
