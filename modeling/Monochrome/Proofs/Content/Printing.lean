import Mathlib.Tactic.Tauto
import Monochrome.Object.Printer
import Monochrome.Proofs.Content.Passing

/-!
# Searching through written objects

What is written for an object that holds no stream is a sequence of lexemes.  Its words are
numbers and constants, which contain no letter `I`, so that a search for `BI` or `ID` passes over
the whole object.
-/

namespace Monochrome
namespace Bytes

/-- A byte of a word that stands for a value. -/
def isValueByte (byte : UInt8) : Bool :=
  isRegular byte && byte != 73

/-- A word that stands for a value. -/
def IsValueWord (word : Bytes) : Prop :=
  word ≠ [] ∧ ∀ byte ∈ word, isValueByte byte = true

/-- The bytes of characters that stand in numbers and constants. -/
theorem isValueByte_of_numeric {character : Char}
    (numeric : character.isDigit = true ∨ character ∈ ['-', '.', 'i', 'n', 'f', 'N', 'a']) :
    isValueByte character.toNat.toUInt8 = true := by
  rcases numeric with digit | other
  · simp only [Char.isDigit, Bool.and_eq_true, decide_eq_true_eq] at digit
    have low : 48 ≤ character.toNat := digit.1
    have high : character.toNat ≤ 57 := digit.2
    generalize character.toNat = value at low high
    have table : ∀ offset : Fin 10, isValueByte (48 + offset.val).toUInt8 = true := by decide
    have entry := table ⟨value - 48, by omega⟩
    rwa [show 48 + (value - 48) = value by omega] at entry
  · simp only [List.mem_cons, List.not_mem_nil, or_false] at other
    rcases other with rfl | rfl | rfl | rfl | rfl | rfl | rfl <;> decide

/-- The decimal digits of a number are a word that stands for a value. -/
theorem isValueWord_ofNat (number : Nat) : IsValueWord (ofNat number) := by
  unfold ofNat ascii
  rw [Nat.toString_eq_repr, Nat.repr_eq_ofList_toDigits, String.toList_ofList]
  refine ⟨by simp, fun byte inWord => ?_⟩
  obtain ⟨character, inDigits, rfl⟩ := List.mem_map.1 inWord
  exact isValueByte_of_numeric
    (Or.inl (Nat.isDigit_of_mem_toDigits (by decide) (by decide) inDigits))

/-- The decimal text of an integer is a word that stands for a value. -/
theorem isValueWord_ofInt (number : Int) : IsValueWord (ofInt number) := by
  unfold ofInt
  split
  · refine ⟨by simp, fun byte inWord => ?_⟩
    rcases List.mem_cons.1 inWord with rfl | inDigits
    · decide
    · exact (isValueWord_ofNat _).2 byte inDigits
  · exact isValueWord_ofNat _

/-- A byte that stands for itself in a name is regular. -/
theorem isRegular_of_isPlainInName :
    ∀ byte : UInt8, Object.isPlainInName byte = true → isRegular byte = true :=
  forall_of_fin (by decide +kernel)

/-- The hexadecimal digits of a byte are regular and close no bracket. -/
theorem hexPair_inside :
    ∀ byte : UInt8, ∀ digit ∈ hexPair byte, isRegular digit = true ∧ digit ≠ 60 ∧ digit ≠ 62 := by
  -- As a check of the two digits alone, which does not go through all bytes.
  have inside : ∀ byte : UInt8, ((hexPair byte).all fun digit =>
      isRegular digit && digit != 60 && digit != 62) = true :=
    forall_of_fin (by decide +kernel)
  intro byte digit isDigit
  have checked := List.all_eq_true.1 (inside byte) digit isDigit
  simp only [Bool.and_eq_true, bne_iff_ne] at checked
  exact ⟨checked.1.1, checked.1.2, checked.2⟩

end Bytes

namespace Numeral

/-- A character of a number in positional notation. -/
def IsPositional (character : Char) : Prop :=
  character.isDigit = true ∨ character ∈ ['-', '.', 'i', 'n', 'f', 'N', 'a']

/-- The characters of digits are those of numbers. -/
theorem isPositional_of_mem_digits {number : Nat} {character : Char}
    (inDigits : character ∈ digits number) : IsPositional character :=
  Or.inl (Nat.isDigit_of_mem_toDigits (by decide) (by decide) inDigits)

/-- A magnitude is written with some characters. -/
theorem positional_ne_nil (coefficient : Nat) (exponent : Int) :
    positional coefficient exponent ≠ [] := by
  have nonempty : digits coefficient ≠ [] := Nat.toDigits_ne_nil
  unfold positional
  split
  · simp
  · split
    · simp [nonempty]
    · simp only
      split <;> simp

/-- A magnitude is written with digits and a point. -/
theorem isPositional_of_mem_positional {coefficient : Nat} {exponent : Int} {character : Char}
    (inText : character ∈ positional coefficient exponent) : IsPositional character := by
  have zero : IsPositional '0' := Or.inl rfl
  have point : IsPositional '.' := Or.inr (by simp)
  unfold positional at inText
  split at inText
  · rcases List.mem_singleton.1 inText with rfl
    exact zero
  · split at inText
    · rcases List.mem_append.1 inText with inDigits | inZeros
      · exact isPositional_of_mem_digits inDigits
      · rw [List.eq_of_mem_replicate inZeros]
        exact zero
    · simp only at inText
      split at inText
      · rcases List.mem_append.1 inText with inWhole | inRest
        · exact isPositional_of_mem_digits (List.mem_of_mem_take inWhole)
        · rcases List.mem_cons.1 inRest with rfl | inFraction
          · exact point
          · exact isPositional_of_mem_digits (List.mem_of_mem_drop inFraction)
      · simp only [List.cons_append, List.mem_cons, List.mem_append] at inText
        rcases inText with rfl | rfl | inZeros | inDigits
        · exact zero
        · exact point
        · rw [List.eq_of_mem_replicate inZeros]
          exact zero
        · exact isPositional_of_mem_digits inDigits

/-- A binary number is written with some characters. -/
theorem write_ne_nil (format : Format) (value : Reading) : write format value ≠ [] := by
  unfold write
  split
  · split
    · simp
    · exact positional_ne_nil _ _
  · split <;> simp
  · simp

/-- A binary number is written with the characters of numbers. -/
theorem isPositional_of_mem_write {format : Format} {value : Reading} {character : Char}
    (inText : character ∈ write format value) : IsPositional character := by
  unfold write at inText
  split at inText
  · split at inText
    · rcases List.mem_cons.1 inText with rfl | inMagnitude
      · exact Or.inr (by simp)
      · exact isPositional_of_mem_positional inMagnitude
    · exact isPositional_of_mem_positional inText
  · refine Or.inr ?_
    split at inText <;> simp only [List.mem_cons, List.not_mem_nil, or_false] at inText ⊢ <;> tauto
  · refine Or.inr ?_
    simp only [List.mem_cons, List.not_mem_nil, or_false] at inText ⊢
    tauto

end Numeral

namespace Object

/-- A real number is written as a word that stands for a value. -/
theorem isValueWord_printReal (value : Float32) : Bytes.IsValueWord (printReal value) := by
  refine ⟨?_, fun byte inWord => ?_⟩
  · simp [printReal, Numeral.write_ne_nil]
  · obtain ⟨character, inText, rfl⟩ := List.mem_map.1 inWord
    exact Bytes.isValueByte_of_numeric (Numeral.isPositional_of_mem_write inText)

end Object

namespace Lexeme

variable {keyword rest : Bytes}

/-- A word that stands for a value is passed over. -/
theorem passesOver_valueWord {text : Bytes}
    (containsLetter : (73 : UInt8) ∈ keyword)
    (value : Bytes.IsValueWord text)
    (ends : endsToken rest = true) :
    PassesOver keyword text rest := by
  have parts : ∀ byte ∈ text, Bytes.isRegular byte = true ∧ byte ≠ 73 := by
    intro byte inText
    simpa [Bytes.isValueByte] using value.2 byte inText
  refine passesOver_word value.1 (fun byte inText => (parts byte inText).1) ?_ ends
  rintro rfl
  exact (parts 73 containsLetter).2 rfl

/-- A written name is passed over. -/
theorem passesOver_printName (bytes : Bytes) (ends : endsToken rest = true) :
    PassesOver keyword (Object.printName bytes) rest := by
  refine passesOver_name (fun byte inName => ?_) ends
  obtain ⟨original, _, inPart⟩ := List.mem_flatMap.1 inName
  split at inPart
  · rename_i plain
    rcases List.mem_singleton.1 inPart with rfl
    exact Bytes.isRegular_of_isPlainInName byte plain
  · rcases List.mem_cons.1 inPart with rfl | inPair
    · decide
    · exact (Bytes.hexPair_inside original byte inPair).1

/-- A backslash hides the byte after it. -/
theorem splitString_hidden (depth : Nat) (hidden : UInt8) (bytes : Bytes) :
    splitString depth (92 :: hidden :: bytes) =
      (92 :: hidden :: (splitString depth bytes).1, (splitString depth bytes).2) := by
  rw [splitString.eq_def]
  simp

/-- An opening parenthesis is inside a string. -/
theorem splitString_open (depth : Nat) (bytes : Bytes) :
    splitString depth (40 :: bytes) =
      (40 :: (splitString (depth + 1) bytes).1, (splitString (depth + 1) bytes).2) := by
  rw [splitString.eq_def]
  simp

/-- A closing parenthesis ends a string in which no other is open. -/
theorem splitString_close (bytes : Bytes) : splitString 1 (41 :: bytes) = ([41], bytes) := by
  rw [splitString.eq_def]
  simp

/-- A closing parenthesis that does not end a string is inside it. -/
theorem splitString_close_inner {depth : Nat} (inner : 1 < depth) (bytes : Bytes) :
    splitString depth (41 :: bytes) =
      (41 :: (splitString (depth - 1) bytes).1, (splitString (depth - 1) bytes).2) := by
  have deep : ¬depth ≤ 1 := by omega
  rw [splitString.eq_def]
  simp [deep]

/-- Every other byte is inside a string. -/
theorem splitString_other
    {byte : UInt8}
    (notOpening : byte ≠ 40)
    (notClosing : byte ≠ 41)
    (notBackslash : byte ≠ 92)
    (depth : Nat)
    (bytes : Bytes) :
    splitString depth (byte :: bytes) =
      (byte :: (splitString depth bytes).1, (splitString depth bytes).2) := by
  rw [splitString.eq_def]
  simp [notOpening, notClosing, notBackslash]

/-- At most as many parentheses stay open as were open before. -/
theorem loneParentheses_missing_le (depth : Nat) (bytes : Bytes) :
    (Object.loneParentheses depth bytes).2 ≤ depth := by
  fun_induction Object.loneParentheses depth bytes <;> grind

/-- The bytes of a literal string as they are written, given the parentheses open before. -/
def printedFrom (depth : Nat) (bytes : Bytes) : Bytes :=
  (List.zipWith Object.printLiteralByte bytes (Object.loneParentheses depth bytes).1).flatten

/-- The bytes of a written literal string are read up to its closing parenthesis.  Of the
parentheses before the bytes those count as open that the bytes close. -/
theorem splitString_printed (depth : Nat) (bytes rest : Bytes) :
    splitString (1 + depth - (Object.loneParentheses depth bytes).2)
        (printedFrom depth bytes ++ 41 :: rest) =
      (printedFrom depth bytes ++ [41], rest) := by
  unfold printedFrom
  induction bytes generalizing depth with
  | nil =>
      have one : 1 + depth - depth = 1 := by omega
      simp [Object.loneParentheses, one, splitString_close]
  | cons byte more inductionHypothesis =>
      by_cases opening : byte = 40
      · subst opening
        have bound := loneParentheses_missing_le (depth + 1) more
        have later := inductionHypothesis (depth + 1)
        rcases found : Object.loneParentheses (depth + 1) more with ⟨marks, missing⟩
        simp only [found] at bound later
        by_cases lone : depth < missing
        · -- The parenthesis is never closed, so it is hidden and does not count.
          have all : missing = depth + 1 := by omega
          subst all
          have one : 1 + (depth + 1) - (depth + 1) = 1 := by omega
          rw [one] at later
          simp [Object.loneParentheses, found, Object.printLiteralByte, splitString_hidden,
            later]
        · have deeper : 1 + (depth + 1) - missing = 1 + depth - missing + 1 := by omega
          rw [deeper] at later
          simp [Object.loneParentheses, found, lone, Object.printLiteralByte, splitString_open,
            later]
      · by_cases closing : byte = 41
        · subst closing
          by_cases outermost : depth = 0
          · subst outermost
            have later := inductionHypothesis 0
            rcases found : Object.loneParentheses 0 more with ⟨marks, missing⟩
            simp only [found] at later
            simp [Object.loneParentheses, found, Object.printLiteralByte, splitString_hidden,
              later]
          · have bound := loneParentheses_missing_le (depth - 1) more
            have later := inductionHypothesis (depth - 1)
            rcases found : Object.loneParentheses (depth - 1) more with ⟨marks, missing⟩
            simp only [found] at bound later
            have shallower : 1 + (depth - 1) - missing = 1 + depth - missing - 1 := by omega
            have inner : 1 < 1 + depth - missing := by omega
            rw [shallower] at later
            simp [Object.loneParentheses, outermost, found, Object.printLiteralByte,
              splitString_close_inner inner, later]
        · have later := inductionHypothesis depth
          rcases found : Object.loneParentheses depth more with ⟨marks, missing⟩
          simp only [found] at later
          by_cases carriage : byte = 13
          · subst carriage
            simp [Object.loneParentheses, found, Object.printLiteralByte, splitString_hidden,
              later]
          · by_cases backslash : byte = 92
            · subst backslash
              simp [Object.loneParentheses, found, Object.printLiteralByte, splitString_hidden,
                later]
            · simp [Object.loneParentheses, found, Object.printLiteralByte, opening, closing,
                carriage, backslash, splitString_other opening closing backslash, later]

/-- A written string is passed over. -/
theorem passesOver_printString (bytes : Bytes) (written : StringNotation) :
    PassesOver keyword (Object.printString bytes written) rest := by
  cases written with
  | literal =>
      refine passesOver_literalString ?_
      have balanced := splitString_printed 0 bytes rest
      have closed : (Object.loneParentheses 0 bytes).2 = 0 :=
        Nat.le_zero.1 (loneParentheses_missing_le 0 bytes)
      simpa [closed, printedFrom] using balanced
  | hexadecimal =>
      refine passesOver_hexString fun byte inText => ?_
      obtain ⟨original, _, inPair⟩ := List.mem_flatMap.1 inText
      exact (Bytes.hexPair_inside original byte inPair).2

end Lexeme
end Monochrome
