import Monochrome.Proofs.Filter.Ascii85
import Monochrome.Proofs.Filter.AsciiHex

/-!
# Wrapped text

Text of the two filters for characters is broken into lines, or has other blanks in it, wherever a
writer likes.  Readers pass over blanks, also between the digits of a group, so that wrapped text
stands for the same bytes.  What follows the end of the text is not read.
-/

namespace Monochrome

/-- Whether a text is another one with blanks put between its bytes, before or behind them. -/
inductive Bytes.IsWrapped : Bytes → Bytes → Prop
  | nil : IsWrapped [] []
  | blank {byte : UInt8} {text wrapped : Bytes} :
      isBlank byte = true → IsWrapped text wrapped → IsWrapped text (byte :: wrapped)
  | byte {byte : UInt8} {text wrapped : Bytes} :
      IsWrapped text wrapped → IsWrapped (byte :: text) (byte :: wrapped)

namespace Bytes.IsWrapped

variable {text wrapped : Bytes}

/-- A text without blanks in it is the text itself. -/
protected theorem refl (text : Bytes) : IsWrapped text text := by
  induction text with
  | nil => exact .nil
  | cons byte text inductionHypothesis => exact .byte inductionHypothesis

/-- Blanks stay where they are if something is put behind the text. -/
theorem append (isWrapped : IsWrapped text wrapped) (after : Bytes) :
    IsWrapped (text ++ after) (wrapped ++ after) := by
  induction isWrapped with
  | nil => exact .refl after
  | blank isBlank _ inductionHypothesis => exact .blank isBlank inductionHypothesis
  | byte _ inductionHypothesis => exact .byte inductionHypothesis

/-- A text is wrapped if leaving out all blanks gives it. -/
theorem of_filter (isText : wrapped.filter (fun byte => !isBlank byte) = text) :
    IsWrapped text wrapped := by
  induction wrapped generalizing text with
  | nil =>
      subst isText
      exact .nil
  | cons byte wrapped inductionHypothesis =>
      rw [List.filter_cons] at isText
      split at isText
      · subst isText
        exact .byte (inductionHypothesis rfl)
      · rename_i blank
        exact .blank (by simpa using blank) (inductionHypothesis isText)

end Bytes.IsWrapped

/-- Blanks are neither digits nor ends of the filters for characters. -/
theorem Bytes.not_digit_of_isBlank :
    ∀ byte : UInt8, isBlank byte = true →
      byte < 33 ∧ byte ≠ 122 ∧ byte ≠ 126 ∧ byte ≠ 62 ∧ hexValue? byte = none :=
  Bytes.forall_of_fin (by decide +kernel)

namespace Ascii85

/-- Blanks between the characters of base-85 text are passed over. -/
theorem decodeFrom?_of_isWrapped {text wrapped : Bytes} (isWrapped : Bytes.IsWrapped text wrapped)
    (word : UInt32) (count : Nat) : decodeFrom? word count wrapped = decodeFrom? word count text := by
  induction isWrapped generalizing word count with
  | nil => rfl
  | @blank byte text wrapped isBlank _ inductionHypothesis =>
      obtain ⟨low, noZeros, noEnd, -, -⟩ := Bytes.not_digit_of_isBlank byte isBlank
      have noDigit : ¬33 ≤ byte := UInt8.not_le.2 low
      rw [decodeFrom?, inductionHypothesis]
      simp [noZeros, noEnd, noDigit]
  | byte _ inductionHypothesis =>
      rw [decodeFrom?, decodeFrom?]
      simp only [inductionHypothesis]

end Ascii85

namespace AsciiHex

/-- Blanks between the digits of hexadecimal text are passed over. -/
theorem decodeFrom_of_isWrapped {text wrapped : Bytes} (isWrapped : Bytes.IsWrapped text wrapped)
    (half : Option UInt8) : decodeFrom half wrapped = decodeFrom half text := by
  induction isWrapped generalizing half with
  | nil => rfl
  | blank isBlank _ inductionHypothesis =>
      obtain ⟨-, -, -, noEnd, noDigit⟩ := Bytes.not_digit_of_isBlank _ isBlank
      cases half <;> simp [decodeFrom, noDigit, noEnd, inductionHypothesis]
  | byte _ inductionHypothesis =>
      unfold decodeFrom
      simp only [inductionHypothesis]

end AsciiHex

namespace Filter

/-- Text that one of the filters for characters wrote stands for the bytes that were written, however
it is wrapped and whatever follows it.  In base-85 text every word on the way fits into 32 bits. -/
theorem decode_of_isWrapped (bytes wrapped after : Bytes) :
    (Bytes.IsWrapped (Ascii85.encode bytes) wrapped →
      Ascii85.decode? (wrapped ++ after) = some bytes ∧ Ascii85.decode (wrapped ++ after) = bytes) ∧
    (Bytes.IsWrapped (AsciiHex.encode bytes) wrapped → AsciiHex.decode (wrapped ++ after) = bytes) := by
  constructor
  · intro isWrapped
    have isRead : Ascii85.decode? (wrapped ++ after) = some bytes := by
      rw [Ascii85.decode?, Ascii85.decodeFrom?_of_isWrapped (isWrapped.append after)]
      exact Ascii85.decode?_encode_append bytes after
    exact ⟨isRead, Ascii85.decodeFrom_of_decodeFrom? isRead⟩
  · intro isWrapped
    rw [AsciiHex.decode, AsciiHex.decodeFrom_of_isWrapped (isWrapped.append after)]
    exact AsciiHex.decode_encode_before bytes after

/-- A group of four zeros, a complete and an incomplete group. -/
def zerosAndGreeting : Bytes :=
  [0, 0, 0, 0] ++ Bytes.ascii "Hello"

/-- Zeros and a greeting are read from lines that are broken inside of groups and inside of the mark of
the end, with more text behind it. -/
theorem decode_of_isWrapped_zerosAndGreeting :
    (Bytes.IsWrapped (Ascii85.encode zerosAndGreeting) (Bytes.ascii "z\r\n87 cUR\tD\nZ~ >") ∧
      Ascii85.decode? (Bytes.ascii "z\r\n87 cUR\tD\nZ~ >" ++ Bytes.ascii "zz~>") =
        some zerosAndGreeting) ∧
    Bytes.IsWrapped (AsciiHex.encode zerosAndGreeting) (Bytes.ascii "00 00\n00 0048 6 56C6C6F\r\n >") ∧
      AsciiHex.decode (Bytes.ascii "00 00\n00 0048 6 56C6C6F\r\n >" ++ Bytes.ascii "FF>") =
        zerosAndGreeting := by
  have inLetters : Bytes.IsWrapped (Ascii85.encode zerosAndGreeting)
      (Bytes.ascii "z\r\n87 cUR\tD\nZ~ >") := .of_filter (by decide +kernel)
  have inDigits : Bytes.IsWrapped (AsciiHex.encode zerosAndGreeting)
      (Bytes.ascii "00 00\n00 0048 6 56C6C6F\r\n >") := .of_filter (by decide +kernel)
  exact ⟨⟨inLetters, ((decode_of_isWrapped _ _ _).1 inLetters).1⟩,
    inDigits, (decode_of_isWrapped _ _ _).2 inDigits⟩

end Filter
end Monochrome
