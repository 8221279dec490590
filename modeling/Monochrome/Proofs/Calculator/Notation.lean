import Mathlib.Data.List.TakeDrop
import Mathlib.Data.List.TakeWhile
import Monochrome.Calculator.Notation
import Monochrome.Proofs.Binary.Integers
import Monochrome.Proofs.Binary.Patterns
import Monochrome.Proofs.Content.Printing
import Monochrome.Proofs.Text.Utf8

/-!
# Programs are read as they were written

What is written for a program is a sequence of words and braces with blanks between them, so it is
taken apart into the tokens of its instructions.  A word of digits is read as its integer, and a
keyword as its operator.  A real number whose text is read back as this number is never taken for an
integer: an integer has no other text, and is read as an integral number.
-/

namespace Monochrome

/-! ## Characters -/

/-- Characters in ASCII are read back from their bytes. -/
theorem Text.decode_map_of_ascii {text : List Char} (isAscii : ∀ character ∈ text, character.toNat < 128) :
    decode (text.map fun character => character.toNat.toUInt8) = text := by
  induction text with
  | nil => simp [decode]
  | cons first rest inductionHypothesis =>
      have small : first.toNat < 128 := isAscii first List.mem_cons_self
      have isByte : first.toNat.toUInt8.toNat = first.toNat := by
        rw [Nat.toUInt8_eq, UInt8.toNat_ofNat', Nat.mod_eq_of_lt (by omega)]
      rw [List.map_cons, decode_one (by omega), isByte, Char.ofNat_toNat,
        inductionHypothesis fun character among => isAscii character (List.mem_cons_of_mem _ among)]

namespace Calculator

/-- Whether a character is in ASCII, and neither a brace nor a blank. -/
def isWordCharacter (character : Char) : Bool :=
  character.toNat < 128 && character != '\x7b' && character != '\x7d' && !Text.isBlank character

/-- Whether characters are written together. -/
def IsWord (word : List Char) : Prop :=
  word ≠ [] ∧ ∀ character ∈ word, isWordCharacter character = true

namespace Token

variable {word rest pending : List Char}

/-- The characters of a word are read one after the other. -/
theorem scan_append (isWord : ∀ character ∈ word, isWordCharacter character = true) :
    scan pending (word ++ rest) = scan (word.reverse ++ pending) rest := by
  induction word generalizing pending with
  | nil => rfl
  | cons first more inductionHypothesis =>
      have isFirst := isWord first List.mem_cons_self
      simp only [isWordCharacter, Bool.and_eq_true, bne_iff_ne, Bool.not_eq_true'] at isFirst
      obtain ⟨⟨⟨-, opens⟩, closes⟩, blank⟩ := isFirst
      rw [List.cons_append, scan, if_neg opens, if_neg closes, if_neg (by simp [blank]),
        inductionHypothesis fun character among => isWord character (List.mem_cons_of_mem _ among)]
      simp

/-- A word ends at a blank. -/
theorem scan_word (isWord : IsWord word) : scan [] (word ++ ' ' :: rest) = .word word :: scan [] rest := by
  rw [scan_append isWord.2, scan, if_neg (by decide), if_neg (by decide), if_pos (by decide), finish]
  simp [isWord.1]

/-- A blank before a token is passed over. -/
theorem scan_blank : scan [] (' ' :: rest) = scan [] rest := by
  rw [scan, if_neg (by decide), if_neg (by decide), if_pos (by decide)]
  rfl

/-- An opening brace is a token. -/
theorem scan_opening : scan [] ('\x7b' :: rest) = .opening :: scan [] rest := by
  rw [scan, if_pos rfl]
  rfl

/-- A closing brace is a token. -/
theorem scan_closing : scan [] ('\x7d' :: rest) = .closing :: scan [] rest := by
  rw [scan, if_neg (by decide), if_pos rfl]
  rfl

end Token

/-! ## Words of numbers -/

/-- The characters of numbers are written together. -/
theorem isWordCharacter_of_isPositional {character : Char}
    (isPositional : Numeral.IsPositional character) : isWordCharacter character = true := by
  rcases isPositional with digit | other
  · simp only [Char.isDigit, Bool.and_eq_true, decide_eq_true_eq] at digit
    have low : 48 ≤ character.toNat := digit.1
    have high : character.toNat ≤ 57 := digit.2
    have table : ∀ offset : Fin 10, isWordCharacter (Char.ofNat (48 + offset.val)) = true := by decide
    have entry := table ⟨character.toNat - 48, by omega⟩
    rwa [show 48 + (character.toNat - 48) = character.toNat by omega, Char.ofNat_toNat] at entry
  · simp only [List.mem_cons, List.not_mem_nil, or_false] at other
    rcases other with rfl | rfl | rfl | rfl | rfl | rfl | rfl <;> decide

/-- The sign before a number is split from what begins with a digit. -/
theorem splitSign_sign (negative : Bool) {text : List Char}
    (begins : ∀ character ∈ text.head?, character.isDigit = true) :
    splitSign (if negative then '-' :: text else text) = (negative, text) := by
  cases negative with
  | true => rfl
  | false =>
      rw [if_neg Bool.false_ne_true, splitSign.eq_def]
      split
      · exact absurd (begins _ rfl) (by decide)
      · exact absurd (begins _ rfl) (by decide)
      · rfl

/-- The digits of a number are digits. -/
theorem all_isDigit_digits (number : Nat) : (Numeral.digits number).all Char.isDigit = true :=
  List.all_eq_true.2 fun _ inDigits => Nat.isDigit_of_mem_toDigits (by decide) (by decide) inDigits

/-- What begins with the digits of a number begins with a digit. -/
theorem isDigit_head_digits (number : Nat) (rest : List Char) :
    ∀ character ∈ (Numeral.digits number ++ rest).head?, character.isDigit = true := by
  intro character isFirst
  obtain ⟨first, more, areDigits⟩ : ∃ first more, Numeral.digits number = first :: more :=
    List.exists_cons_of_ne_nil Nat.toDigits_ne_nil
  rw [areDigits] at isFirst
  obtain rfl := Option.some.inj isFirst
  have all := all_isDigit_digits number
  rw [areDigits] at all
  exact List.all_eq_true.1 all first List.mem_cons_self

/-- A number is read from its digits. -/
theorem ofDigits_digits (number : Nat) : Numeral.ofDigits (Numeral.digits number) = number :=
  Nat.ofDigitChars_toDigits (by decide) (by decide)

/-- An integer is written as its sign and its digits. -/
theorem toList_toString (number : Int) :
    (toString number).toList =
      if number < 0 then '-' :: Numeral.digits number.natAbs else Numeral.digits number.natAbs := by
  cases number with
  | ofNat number =>
      rw [if_neg (by simp)]
      exact Nat.toList_repr
  | negSucc number =>
      rw [if_pos (Int.negSucc_lt_zero number)]
      show ("-" ++ toString (number + 1)).toList = _
      rw [String.toList_append, Nat.toString_eq_repr, Nat.toList_repr]
      rfl

/-- An integer is read from what is written for it. -/
theorem readInteger?_toString (value : Int64) :
    readInteger? (toString value.toInt).toList = some value := by
  have isSplit := splitSign_sign (decide (value.toInt < 0))
    (isDigit_head_digits value.toInt.natAbs [])
  simp only [decide_eq_true_eq, List.append_nil] at isSplit
  have nonempty : (Numeral.digits value.toInt.natAbs).isEmpty = false :=
    List.isEmpty_eq_false_iff.2 Nat.toDigits_ne_nil
  have low := value.le_toInt
  have high := value.toInt_lt
  have isValue : (if decide (value.toInt < 0) = true then -(value.toInt.natAbs : Int)
      else value.toInt.natAbs) = value.toInt := by
    simp only [decide_eq_true_eq]
    omega
  rw [readInteger?, toList_toString, isSplit]
  simp only [ofDigits_digits, isValue, nonempty, all_isDigit_digits, Int64.ofInt_toInt]
  rw [if_neg]
  simp
  omega

/-! ## Real numbers are no integers -/

/-- A digit has no case. -/
theorem toLower_of_isDigit {character : Char} (isDigit : character.isDigit = true) :
    character.toLower = character := by
  simp only [Char.isDigit, Bool.and_eq_true, decide_eq_true_eq] at isDigit
  have noLetter : ¬('A'.val ≤ character.val ∧ character.val ≤ 'Z'.val) := fun isLetter =>
    absurd (UInt32.le_trans isLetter.1 isDigit.2) (by decide)
  exact dif_neg noLetter

/-- What begins with a digit after its sign is read as a numeral. -/
theorem readReal?_of_splitSign {word text : List Char} {negative : Bool}
    (isSplit : splitSign word = (negative, text))
    (begins : ∀ character ∈ text.head?, character.isDigit = true) :
    readReal? word = (readNumeral? negative text).map fun numeral =>
      FloatScalar.ofPattern (numeral.nearest .double) := by
  have noName (name : List Char) (isName : ∃ first ∈ name.head?, first.isDigit = false) :
      text.map Char.toLower ≠ name := by
    rintro rfl
    obtain ⟨lower, isLower, notDigit⟩ := isName
    rw [List.head?_map, Option.mem_def, Option.map_eq_some_iff] at isLower
    obtain ⟨first, isFirst, rfl⟩ := isLower
    rw [toLower_of_isDigit (begins first isFirst), begins first isFirst] at notDigit
    cases notDigit
  rw [readReal?, isSplit]
  simp only [noName ['i', 'n', 'f'] ⟨'i', rfl, rfl⟩, noName ['n', 'a', 'n'] ⟨'n', rfl, rfl⟩,
    noName ['i', 'n', 'f', 'i', 'n', 'i', 't', 'y'] ⟨'i', rfl, rfl⟩]
  rfl

/-- Digits are read up to what is no digit. -/
theorem span_isDigit {whole : List Char} (areDigits : whole.all Char.isDigit = true) (rest : List Char)
    (ends : ∀ character ∈ rest.head?, character.isDigit = false) :
    (whole ++ rest).span Char.isDigit = (whole, rest) := by
  have each := List.all_eq_true.1 areDigits
  rw [List.span_eq_takeWhile_dropWhile, List.takeWhile_append_of_pos each,
    List.dropWhile_append_of_pos each]
  cases rest with
  | nil => simp
  | cons character rest =>
      have isEnd := ends character rfl
      simp [isEnd]

/-- Digits alone are read as an integer. -/
theorem readNumeral?_whole {whole : List Char} {negative : Bool} (nonempty : whole ≠ [])
    (areDigits : whole.all Char.isDigit = true) :
    readNumeral? negative whole = some ⟨negative, Numeral.ofDigits whole, 0⟩ := by
  have isSpan := span_isDigit areDigits [] nofun
  rw [List.append_nil] at isSpan
  rw [readNumeral?, isSpan]
  simp [nonempty, readExponent?]

/-- Digits are read as the real number that is nearest to their integer. -/
theorem readReal?_of_digits {word digits : List Char} {negative : Bool}
    (isSplit : splitSign word = (negative, digits)) (nonempty : digits ≠ [])
    (areDigits : digits.all Char.isDigit = true) :
    readReal? word = some (FloatScalar.ofPattern
      (Numeral.nearest .double ⟨negative, Numeral.ofDigits digits, 0⟩)) := by
  have begins : ∀ character ∈ digits.head?, character.isDigit = true := fun character isFirst =>
    List.all_eq_true.1 areDigits character (List.mem_of_mem_head? isFirst)
  rw [readReal?_of_splitSign isSplit begins, readNumeral?_whole nonempty areDigits]
  rfl

/-- Whether a number has no fraction, or is infinite. -/
def IsWhole (reading : Reading) : Prop :=
  reading.isInteger = true ∨ ∃ negative, reading = .infinite negative

/-- A number has no fraction with a sign if it has none without. -/
theorem isWhole_read_signed {format : Format} {magnitude : Nat} (negative : Bool)
    (isWhole : IsWhole (format.read magnitude)) :
    IsWhole (format.read (format.withSign negative magnitude)) := by
  have fields : format.withSign negative magnitude % format.signBit = magnitude % format.signBit := by
    cases negative with
    | true => exact Nat.add_mod_left _ _
    | false => rfl
  unfold Format.read at isWhole ⊢
  rw [fields]
  dsimp only at isWhole ⊢
  split_ifs at isWhole ⊢
  · exact Or.inr ⟨_, rfl⟩
  · rcases isWhole with isInteger | ⟨_, isInfinite⟩
    · cases isInteger
    · cases isInfinite
  · exact isWhole.imp_right fun ⟨_, isInfinite⟩ => nomatch isInfinite
  · exact isWhole.imp_right fun ⟨_, isInfinite⟩ => nomatch isInfinite

/-- The real number nearest to an integer has no fraction. -/
theorem isWhole_nearest (negative : Bool) (number : Nat) :
    IsWhole (FloatScalar.read (FloatScalar.ofPattern
      (Numeral.nearest .double ⟨negative, number, 0⟩))) := by
  have atMost : Format.double.nearest number 1 ≤ Format.double.infinity := by
    rw [Format.nearest]
    split
    · exact Nat.zero_le _
    · exact Nat.min_le_right _ _
  obtain ⟨magnitude, isMagnitude, bounded, isWhole⟩ :
      ∃ magnitude, Numeral.nearest .double ⟨negative, number, 0⟩ =
        Format.double.withSign negative magnitude ∧ magnitude ≤ Format.double.infinity ∧
        IsWhole (Format.double.read magnitude) := by
    simp only [Numeral.nearest]
    split_ifs
    · have isZero : Format.double.read 0 = .finite false 0 (-1074) := by decide +kernel
      have isInteger (exponent : Int) : (Reading.finite false 0 exponent).isInteger = true := by
        simp [Reading.isInteger]
      exact ⟨_, rfl, Nat.zero_le _, Or.inl (by rw [isZero, isInteger])⟩
    · exact ⟨_, rfl, Nat.le_refl _, Or.inr ⟨false, by decide⟩⟩
    · have isWhole : IsWhole (Format.double.read (Format.double.nearest number 1)) :=
        (Format.isInteger_nearest_one number (by decide)).imp_right fun found => ⟨_, found⟩
      exact ⟨_, rfl, by simpa using atMost, by simpa using isWhole⟩
  rw [isMagnitude, FloatScalar.read_ofPattern]
  · exact isWhole_read_signed negative isWhole
  · have limit : Format.double.signBit + Format.double.infinity < 2 ^ 64 := by decide
    unfold Format.withSign
    split <;> omega

/-- A word that is read as an integer has digits after its sign, and nothing else. -/
theorem digits_of_readInteger? {word : List Char} {number : Int64}
    (isRead : readInteger? word = some number) :
    (splitSign word).2 ≠ [] ∧ (splitSign word).2.all Char.isDigit = true := by
  simp only [readInteger?] at isRead
  generalize (if (splitSign word).1 = true then _ else _ : Int) = value at isRead
  split at isRead
  next => cases isRead
  next accepted =>
    simp only [Bool.or_eq_true, not_or, List.isEmpty_iff, Bool.not_eq_true', Bool.not_eq_false]
      at accepted
    exact ⟨accepted.1.1.1, accepted.1.1.2⟩

/-- What is written for a real number is not read as an integer, if it is read as the number. -/
theorem readInteger?_printReal {value : Float}
    (readsBack : readReal? (printReal value) = some value) :
    readInteger? (printReal value) = none := by
  by_contra isInteger
  obtain ⟨number, isNumber⟩ := Option.ne_none_iff_exists'.1 isInteger
  obtain ⟨nonempty, areDigits⟩ := digits_of_readInteger? isNumber
  have isWhole : IsWhole (FloatScalar.read value) := by
    rw [readReal?_of_digits rfl nonempty areDigits] at readsBack
    rw [← Option.some.inj readsBack]
    exact isWhole_nearest _ _
  rw [printReal] at areDigits
  split at areDigits
  next negative mantissa exponent isFinite =>
    split at areDigits
    next =>
      rw [printIntegral, splitSign_sign negative (isDigit_head_digits _ _)] at areDigits
      simp [Char.isDigit] at areDigits
    next hasFraction =>
      rw [isFinite] at isWhole
      rcases isWhole with isInteger | ⟨_, isInfinite⟩
      · exact hasFraction isInteger
      · cases isInfinite
  next notFinite =>
    cases isRead : FloatScalar.read value with
    | finite negative mantissa exponent => exact notFinite _ _ _ isRead
    | infinite negative =>
        rw [isRead] at areDigits
        cases negative <;> cases areDigits
    | notANumber =>
        rw [isRead] at areDigits
        cases areDigits

/-! ## Words of instructions -/

/-- Words are in ASCII. -/
theorem IsWord.isAscii {word : List Char} (isWord : IsWord word) :
    ∀ character ∈ word, character.toNat < 128 := by
  intro character among
  have isCharacter := isWord.2 character among
  simp only [isWordCharacter, Bool.and_eq_true, decide_eq_true_eq] at isCharacter
  exact isCharacter.1.1.1

/-- What is written for an integer is a word. -/
theorem isWord_toString (value : Int) : IsWord (toString value).toList := by
  have nonempty : Numeral.digits value.natAbs ≠ [] := Nat.toDigits_ne_nil
  rw [toList_toString]
  split
  · refine ⟨List.cons_ne_nil _ _, fun character among => ?_⟩
    rcases List.mem_cons.1 among with rfl | inDigits
    · decide
    · exact isWordCharacter_of_isPositional (Numeral.isPositional_of_mem_digits inDigits)
  · exact ⟨nonempty, fun character inDigits =>
      isWordCharacter_of_isPositional (Numeral.isPositional_of_mem_digits inDigits)⟩

/-- What is written for an integral number is a word. -/
theorem isWord_printIntegral (negative : Bool) (mantissa : Nat) (exponent : Int) :
    IsWord (printIntegral negative mantissa exponent) := by
  have each (number : Nat) :
      ∀ character ∈ Numeral.digits number ++ ['.', '0'], isWordCharacter character = true := by
    intro character among
    rcases List.mem_append.1 among with inDigits | inFraction
    · exact isWordCharacter_of_isPositional (Numeral.isPositional_of_mem_digits inDigits)
    · exact isWordCharacter_of_isPositional (by
        simp only [List.mem_cons, List.not_mem_nil, or_false] at inFraction
        rcases inFraction with rfl | rfl
        · exact Or.inr (by decide)
        · exact Or.inl rfl)
  unfold printIntegral
  dsimp only
  split
  · exact ⟨List.cons_ne_nil _ _, List.forall_mem_cons.2 ⟨by decide, each _⟩⟩
  · exact ⟨by simp, each _⟩

/-- What is written for a real number is a word. -/
theorem isWord_printReal (value : Float) : IsWord (printReal value) := by
  have written (reading : Reading) : IsWord (Numeral.write .double reading) :=
    ⟨Numeral.write_ne_nil _ _, fun _ inText =>
      isWordCharacter_of_isPositional (Numeral.isPositional_of_mem_write inText)⟩
  unfold printReal
  split
  · split
    · exact isWord_printIntegral _ _ _
    · exact written _
  · exact written _

/-- The keyword of an operator is a word. -/
theorem isWord_keyword (operator : Operator) : IsWord operator.keyword.toList := by
  constructor
  · cases operator <;> decide
  · exact List.all_eq_true.1 (by cases operator <;> decide)

/-- A keyword is read as its operator. -/
theorem readWord_keyword (operator : Operator) :
    readWord operator.keyword.toList = .ok (.operator operator) := by
  have noInteger : readInteger? operator.keyword.toList = none := by cases operator <;> rfl
  have noReal : readReal? operator.keyword.toList = none := by cases operator <;> rfl
  rw [readWord, noInteger, noReal, String.ofList_toList, Operator.ofKeyword?_keyword]

/-! ## Programs -/

mutual

/-- Whether the real numbers of an instruction are read back from what is written for them. -/
def Instruction.ReadsBack : Instruction Float → Prop
  | .real value => readReal? (printReal value) = some value
  | .procedure body => Instruction.AllReadBack body
  | _ => True

/-- Whether the real numbers of instructions are read back from what is written for them. -/
def Instruction.AllReadBack : List (Instruction Float) → Prop
  | [] => True
  | instruction :: rest => instruction.ReadsBack ∧ Instruction.AllReadBack rest

end

mutual

/-- The tokens of what is written for an instruction. -/
def Instruction.tokens : Instruction Float → List Token
  | .procedure body => .opening :: (Instruction.tokensOf body ++ [.closing])
  | instruction => [.word instruction.print]

/-- The tokens of what is written for instructions. -/
def Instruction.tokensOf : List (Instruction Float) → List Token
  | [] => []
  | instruction :: rest => instruction.tokens ++ Instruction.tokensOf rest

end

namespace Instruction

mutual

/-- What is written for an instruction is in ASCII. -/
theorem isAscii_print :
    ∀ (instruction : Instruction Float), ∀ character ∈ instruction.print, character.toNat < 128
  | .integer value => by
      rw [print]
      exact (isWord_toString _).isAscii
  | .real value => by
      rw [print]
      exact (isWord_printReal _).isAscii
  | .operator command => by
      rw [print]
      exact (isWord_keyword _).isAscii
  | .procedure body => by
      rw [print, List.forall_mem_append, List.forall_mem_cons]
      exact ⟨⟨by decide, isAscii_printAll body⟩, by simp⟩

/-- What is written for instructions is in ASCII. -/
theorem isAscii_printAll :
    ∀ (program : List (Instruction Float)), ∀ character ∈ printAll program, character.toNat < 128
  | [] => by
      rw [printAll]
      exact fun _ => nofun
  | instruction :: rest => by
      rw [printAll, List.forall_mem_append, List.forall_mem_cons]
      exact ⟨⟨by decide, isAscii_print instruction⟩, isAscii_printAll rest⟩

end

/-- What is written for instructions before a blank begins with a blank. -/
theorem exists_printAll_append (program : List (Instruction Float)) (rest : List Char) :
    ∃ more, printAll program ++ ' ' :: rest = ' ' :: more := by
  cases program with
  | nil => exact ⟨rest, rfl⟩
  | cons instruction others =>
      rw [printAll]
      exact ⟨_, rfl⟩

mutual

/-- What is written for an instruction is taken apart into its tokens. -/
theorem scan_print : ∀ (instruction : Instruction Float) (rest : List Char),
    Token.scan [] (instruction.print ++ ' ' :: rest) = instruction.tokens ++ Token.scan [] rest
  | .integer value, rest => by
      rw [print, Token.scan_word (isWord_toString _)]
      rfl
  | .real value, rest => by
      rw [print, Token.scan_word (isWord_printReal _)]
      rfl
  | .operator command, rest => by
      rw [print, Token.scan_word (isWord_keyword _)]
      rfl
  | .procedure body, rest => by
      have inside := scan_printAll body ('}' :: ' ' :: rest)
      rw [Token.scan_closing, Token.scan_blank] at inside
      rw [print, tokens]
      simp only [List.cons_append, List.append_assoc, List.nil_append]
      rw [Token.scan_opening, inside]

/-- What is written for instructions is taken apart into their tokens. -/
theorem scan_printAll : ∀ (program : List (Instruction Float)) (rest : List Char),
    Token.scan [] (printAll program ++ ' ' :: rest) = tokensOf program ++ Token.scan [] rest
  | [], rest => Token.scan_blank
  | instruction :: others, rest => by
      obtain ⟨more, isMore⟩ := exists_printAll_append others rest
      have following := scan_printAll others rest
      rw [isMore, Token.scan_blank] at following
      rw [printAll, tokensOf, List.cons_append, List.cons_append, Token.scan_blank,
        List.append_assoc, isMore, scan_print instruction more, following, List.append_assoc]

end

/-- An instruction that is written as a word is read from it. -/
theorem readFrom_word {instruction : Instruction Float} {word : List Char}
    (isRead : readWord word = .ok instruction) (current : Program Float)
    (enclosing : List (Program Float)) (rest : List Token) :
    readFrom current enclosing (.word word :: rest) =
      readFrom (instruction :: current) enclosing rest := by
  rw [readFrom, isRead]

mutual

/-- An instruction is read from its tokens. -/
theorem readFrom_tokens : ∀ (instruction : Instruction Float) (_ : instruction.ReadsBack)
    (current : Program Float) (enclosing : List (Program Float)) (rest : List Token),
    readFrom current enclosing (instruction.tokens ++ rest) =
      readFrom (instruction :: current) enclosing rest
  | .integer value, _, current, enclosing, rest => by
      have isRead : readWord (toString value.toInt).toList = .ok (.integer value) := by
        rw [readWord, readInteger?_toString]
      exact readFrom_word isRead current enclosing rest
  | .real value, readsBack, current, enclosing, rest => by
      rw [ReadsBack] at readsBack
      have isRead : readWord (printReal value) = .ok (.real value) := by
        rw [readWord, readInteger?_printReal readsBack, readsBack]
      exact readFrom_word isRead current enclosing rest
  | .operator command, _, current, enclosing, rest =>
      readFrom_word (readWord_keyword command) current enclosing rest
  | .procedure body, readsBack, current, enclosing, rest => by
      rw [ReadsBack] at readsBack
      rw [tokens, List.cons_append, readFrom, List.append_assoc,
        readFrom_tokensOf body readsBack [] (current :: enclosing)]
      simp [readFrom]

/-- Instructions are read from their tokens. -/
theorem readFrom_tokensOf : ∀ (program : List (Instruction Float)) (_ : AllReadBack program)
    (current : Program Float) (enclosing : List (Program Float)) (rest : List Token),
    readFrom current enclosing (tokensOf program ++ rest) =
      readFrom (program.reverse ++ current) enclosing rest
  | [], _, current, enclosing, rest => rfl
  | instruction :: others, readBack, current, enclosing, rest => by
      rw [AllReadBack] at readBack
      rw [tokensOf, List.append_assoc, readFrom_tokens instruction readBack.1,
        readFrom_tokensOf others readBack.2]
      simp

end

end Instruction

/-- A program is read from what is written for it, if its real numbers are read back. -/
theorem read_print {program : Program Float} (readBack : Instruction.AllReadBack program) :
    read (print program) = .ok program := by
  have isText : Text.decode (print program) =
      '{' :: (Instruction.printAll program ++ ' ' :: ['}']) := by
    rw [print, Text.decode_map_of_ascii]
    · simp
    · rw [List.forall_mem_append, List.forall_mem_cons]
      exact ⟨⟨by decide, Instruction.isAscii_printAll program⟩, by simp⟩
  rw [read, isText, Token.scan_opening, Instruction.scan_printAll, Token.scan_closing]
  show readFrom [] [] _ = _
  rw [Instruction.readFrom_tokensOf program readBack, readFrom, List.append_nil, List.reverse_reverse]

end Calculator
end Monochrome
