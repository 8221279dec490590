import Monochrome.Filter.AsciiHex
import Monochrome.Proofs.Content.Passing

/-!
# Hexadecimal data is read back

Every byte is written as two digits, which are read as that byte again, whatever follows them.
-/

namespace Monochrome

/-- The digits of a byte have the values of its halves, which make it up. -/
theorem Bytes.hexValue?_hexDigit :
    ∀ byte : UInt8, Bytes.hexValue? (Bytes.hexDigit (byte >>> 4)) = some (byte >>> 4) ∧
      Bytes.hexValue? (Bytes.hexDigit (byte &&& 15)) = some (byte &&& 15) ∧
        ((byte >>> 4) <<< 4) ||| (byte &&& 15) = byte :=
  Bytes.forall_of_fin (by decide +kernel)

namespace AsciiHex

/-- The two digits of a byte are read as that byte. -/
theorem decodeFrom_hexPair (byte : UInt8) (rest : Bytes) :
    decodeFrom none (Bytes.hexPair byte ++ rest) = byte :: decodeFrom none rest := by
  obtain ⟨high, low, joined⟩ := Bytes.hexValue?_hexDigit byte
  simp [Bytes.hexPair, decodeFrom, high, low, joined]

/-- The hexadecimal text of bytes stands for them, whatever follows it. -/
theorem decode_encode_before (bytes after : Bytes) : decode (encode bytes ++ after) = bytes := by
  unfold decode encode
  rw [List.append_assoc]
  induction bytes with
  | nil => rfl
  | cons byte rest inductionHypothesis =>
      rw [List.flatMap_cons, List.append_assoc, decodeFrom_hexPair, inductionHypothesis]

/-- The hexadecimal text of bytes stands for them. -/
theorem decode_encode (bytes : Bytes) : decode (encode bytes) = bytes := by
  have isRead := decode_encode_before bytes []
  rwa [List.append_nil] at isRead

end AsciiHex
end Monochrome
