import Monochrome.Filter.Ascii85

/-!
# Base-85 data is read back

A word is read from its five digits.  Of an incomplete group the last digits are missing: the
reader takes the highest ones in their place, which raises the word by less than the last byte
that is there counts for.

Words are computed with modulo `2 ^ 32`, so that digits that are no word's would be read as those
of another one.  The checked reader stops where a word would not fit into 32 bits, and else reads the
same.  It reads everything that is written, so there no word is ever cut.
-/

namespace Monochrome
namespace Ascii85

/-! ## Reading with a check -/

/-- One more digit of a word, if the word still fits into 32 bits. -/
def push? (word : UInt32) (digit : UInt8) : Option UInt32 :=
  if word.toNat * 85 + digit.toNat < 2 ^ 32 then some (push word digit) else none

/-- The bytes of an incomplete group of characters, if its word fits into 32 bits. -/
def finish? (word : UInt32) (count : Nat) : Option Bytes :=
  if 1 < count then do
    let filled ← (List.replicate (5 - count) (84 : UInt8)).foldlM push? word
    return (wordBytes filled).take (count - 1)
  else some []

/-- Decodes with the characters of the current group read so far, if all words fit into 32 bits. -/
def decodeFrom? (word : UInt32) (count : Nat) : Bytes → Option Bytes
  | [] => finish? word count
  | byte :: rest =>
    if byte = 122 && count = 0 then do
      let bytes ← decodeFrom? word count rest
      return 0 :: 0 :: 0 :: 0 :: bytes
    else if byte = 126 then finish? word count
    else if 33 ≤ byte && byte ≤ 117 then do
      let word ← push? word (byte - 33)
      if count = 4 then do
        let bytes ← decodeFrom? 0 0 rest
        return wordBytes word ++ bytes
      else decodeFrom? word (count + 1) rest
    else decodeFrom? word count rest

/-- The bytes that base-85 text stands for, if all its words fit into 32 bits. -/
def decode? (text : Bytes) : Option Bytes :=
  decodeFrom? 0 0 text

variable {word : UInt32} {count : Nat}

/-- A digit that is added with a check is added. -/
theorem push_of_push? {digit : UInt8} {next : UInt32} (isNext : push? word digit = some next) :
    push word digit = next := by
  rw [push?] at isNext
  split at isNext
  · exact Option.some.inj isNext
  · cases isNext

/-- Digits that are added with a check are added. -/
theorem foldl_push_of_foldlM {digits : Bytes} {next : UInt32}
    (isNext : digits.foldlM push? word = some next) : digits.foldl push word = next := by
  induction digits generalizing word with
  | nil => exact Option.some.inj isNext
  | cons digit digits inductionHypothesis =>
      rw [List.foldlM_cons] at isNext
      obtain ⟨middle, isMiddle, isNext⟩ := Option.bind_eq_some_iff.1 isNext
      rw [List.foldl_cons, push_of_push? isMiddle]
      exact inductionHypothesis isNext

/-- An incomplete group that is read with a check is read so without. -/
theorem finish_of_finish? {bytes : Bytes} (isRead : finish? word count = some bytes) :
    finish word count = bytes := by
  rw [finish?] at isRead
  rw [finish]
  split
  · rename_i several
    rw [if_pos several] at isRead
    obtain ⟨filled, isFilled, isRead⟩ := Option.bind_eq_some_iff.1 isRead
    rw [foldl_push_of_foldlM isFilled]
    exact Option.some.inj isRead
  · rename_i few
    rw [if_neg few] at isRead
    exact Option.some.inj isRead

/-- What is read with a check is read so without. -/
theorem decodeFrom_of_decodeFrom? {text bytes : Bytes}
    (isRead : decodeFrom? word count text = some bytes) : decodeFrom word count text = bytes := by
  induction text generalizing word count bytes with
  | nil => exact finish_of_finish? isRead
  | cons byte rest inductionHypothesis =>
      rw [decodeFrom?] at isRead
      rw [decodeFrom]
      split
      · rename_i zeros
        rw [if_pos zeros] at isRead
        obtain ⟨others, isOthers, isRead⟩ := Option.bind_eq_some_iff.1 isRead
        rw [inductionHypothesis isOthers]
        exact Option.some.inj isRead
      rename_i noZeros
      rw [if_neg noZeros] at isRead
      split
      · rename_i ends
        rw [if_pos ends] at isRead
        exact finish_of_finish? isRead
      rename_i goesOn
      rw [if_neg goesOn] at isRead
      split
      · rename_i isDigit
        rw [if_pos isDigit] at isRead
        obtain ⟨next, isNext, isRead⟩ := Option.bind_eq_some_iff.1 isRead
        rw [push_of_push? isNext]
        split
        · rename_i last
          rw [if_pos last] at isRead
          obtain ⟨others, isOthers, isRead⟩ := Option.bind_eq_some_iff.1 isRead
          rw [inductionHypothesis isOthers]
          exact Option.some.inj isRead
        · rename_i notLast
          rw [if_neg notLast] at isRead
          exact inductionHypothesis isRead
      · rename_i noDigit
        rw [if_neg noDigit] at isRead
        exact inductionHypothesis isRead

/-! ## Words and their digits -/

/-- A byte is told by its value modulo 256. -/
theorem toUInt8_eq {value : Nat} (byte : UInt8) (same : value % 256 = byte.toNat) :
    value.toUInt8 = byte := by
  apply UInt8.toNat_inj.1
  rw [Nat.toUInt8, UInt8.toNat_ofNat']
  exact same

/-- A digit is added to a word as to a number. -/
theorem push_toUInt32 (value : Nat) (digit : UInt8) :
    push value.toUInt32 digit = (value * 85 + digit.toNat).toUInt32 := by
  apply UInt32.toNat_inj.1
  simp only [push, UInt32.toNat_add, UInt32.toNat_mul, Nat.toUInt32, UInt32.toNat_ofNat',
    UInt32.toNat_ofNat, UInt8.toNat_toUInt32]
  omega

/-- A digit is added with a check where the number fits into 32 bits. -/
theorem push?_toUInt32 {value : Nat} {digit : UInt8} (fits : value * 85 + digit.toNat < 2 ^ 32) :
    push? value.toUInt32 digit = some (value * 85 + digit.toNat).toUInt32 := by
  have isValue : value.toUInt32.toNat = value := by
    rw [Nat.toUInt32, UInt32.toNat_ofNat']
    omega
  rw [push?, isValue, if_pos fits, push_toUInt32]

/-- The bytes of a word are those of the number. -/
theorem wordBytes_toUInt32 (value : Nat) :
    wordBytes value.toUInt32 =
      [(value / 2 ^ 24).toUInt8, (value / 2 ^ 16).toUInt8, (value / 2 ^ 8).toUInt8,
        value.toUInt8] := by
  have byteAt (word : UInt32) (shift : Nat) (same : word.toNat = value % 2 ^ 32 / 2 ^ shift)
      (inside : shift ≤ 24) : word.toUInt8 = (value / 2 ^ shift).toUInt8 := by
    symm
    apply toUInt8_eq
    have split : (2 : Nat) ^ 32 = 2 ^ shift * 2 ^ (32 - shift) := by
      rw [← Nat.pow_add]
      congr 1
      omega
    have cut : (2 : Nat) ^ (32 - shift) = 256 * 2 ^ (24 - shift) := by
      rw [show 32 - shift = 8 + (24 - shift) by omega, Nat.pow_add]
    rw [UInt32.toNat_toUInt8, same, split, Nat.mod_mul_right_div_self, cut,
      Nat.mod_mul_right_mod]
  have shifted (shift : UInt32) (inside : shift.toNat % 32 = shift.toNat) :
      (value.toUInt32 >>> shift).toNat = value % 2 ^ 32 / 2 ^ shift.toNat := by
    simp only [UInt32.toNat_shiftRight, Nat.toUInt32, UInt32.toNat_ofNat',
      Nat.shiftRight_eq_div_pow, inside]
  have low : value.toUInt32.toUInt8 = value.toUInt8 := by
    simp
  unfold wordBytes
  rw [byteAt _ 24 (shifted 24 rfl) (by omega), byteAt _ 16 (shifted 16 rfl) (by omega),
    byteAt _ 8 (shifted 8 rfl) (by omega), low]

/-- A digit is read as one, whatever follows. -/
theorem decodeFrom?_digit {digit : Nat} (isDigit : digit < 85) (word : UInt32) (count : Nat)
    (rest : Bytes) :
    decodeFrom? word count ((digit.toUInt8 + 33) :: rest) =
      (push? word digit.toUInt8).bind fun word =>
        if count = 4 then (decodeFrom? 0 0 rest).map (wordBytes word ++ ·)
        else decodeFrom? word (count + 1) rest := by
  have value : (digit.toUInt8 + 33).toNat = digit + 33 := by
    simp only [UInt8.toNat_add, Nat.toUInt8, UInt8.toNat_ofNat', UInt8.toNat_ofNat]
    omega
  have notZeros : digit.toUInt8 + 33 ≠ 122 := by
    intro same
    rw [same] at value
    simp at value
    omega
  have notEnd : digit.toUInt8 + 33 ≠ 126 := by
    intro same
    rw [same] at value
    simp at value
    omega
  have above : 33 ≤ digit.toUInt8 + 33 := by
    rw [UInt8.le_iff_toNat_le, value]
    simp
  have below : digit.toUInt8 + 33 ≤ 117 := by
    rw [UInt8.le_iff_toNat_le, value]
    simp
    omega
  rw [decodeFrom?]
  simp [notZeros, notEnd, above, below, Option.map_eq_bind, Function.comp_def]

/-- A digit continues the number that was read. -/
theorem push?_digit {value : Nat} (bounded : value < 2 ^ 32) :
    push? (value / 85).toUInt32 (value % 85).toUInt8 = some value.toUInt32 := by
  have digit : ((value % 85).toUInt8).toNat = value % 85 := by
    simp only [Nat.toUInt8, UInt8.toNat_ofNat']
    omega
  rw [push?_toUInt32 (by rw [digit, Nat.div_add_mod']; exact bounded), digit, Nat.div_add_mod']

/-- Up to four digits are read as the number that they spell. -/
theorem decodeFrom?_digits {count : Nat} (short : count ≤ 4) {value : Nat}
    (bounded : value < 85 ^ count) (rest : Bytes) :
    decodeFrom? 0 0 (digits count value ++ rest) = decodeFrom? value.toUInt32 count rest := by
  induction count generalizing value rest with
  | zero =>
      obtain rfl : value = 0 := by simpa using bounded
      rfl
  | succ count inductionHypothesis =>
      have quotient : value / 85 < 85 ^ count := by
        rw [Nat.div_lt_iff_lt_mul (by decide), ← Nat.pow_succ]
        exact bounded
      have fits : value < 2 ^ 32 :=
        calc value < 85 ^ (count + 1) := bounded
          _ ≤ 85 ^ 4 := Nat.pow_le_pow_right (by decide) short
          _ ≤ 2 ^ 32 := by decide
      rw [digits, List.append_assoc, inductionHypothesis (by omega) quotient, List.cons_append,
        List.nil_append, decodeFrom?_digit (Nat.mod_lt _ (by decide)), push?_digit fits,
        Option.bind_some, if_neg (by omega)]

/-- Five digits are read as the bytes of the number that they spell. -/
theorem decodeFrom?_word {value : Nat} (bounded : value < 2 ^ 32) (rest : Bytes) :
    decodeFrom? 0 0 (digits 5 value ++ rest) =
      (decodeFrom? 0 0 rest).map (wordBytes value.toUInt32 ++ ·) := by
  rw [digits, List.append_assoc, decodeFrom?_digits (Nat.le_refl 4) (by omega), List.cons_append,
    List.nil_append, decodeFrom?_digit (Nat.mod_lt _ (by decide)), push?_digit bounded,
    Option.bind_some, if_pos rfl]

/-- There are as many digits as wanted. -/
@[simp] theorem length_digits (count value : Nat) : (digits count value).length = count := by
  induction count generalizing value with
  | zero => rfl
  | succ count inductionHypothesis => simp [digits, inductionHypothesis]

/-- The first digits of a number are those of its quotient. -/
theorem take_digits (count more value : Nat) :
    (digits (count + more) value).take count = digits count (value / 85 ^ more) := by
  induction more generalizing value with
  | zero =>
      rw [Nat.add_zero, Nat.pow_zero, Nat.div_one, List.take_of_length_le (by simp)]
  | succ more inductionHypothesis =>
      rw [← Nat.add_assoc, digits, List.take_append_of_le_length (by simp), inductionHypothesis,
        Nat.div_div_eq_div_mul, Nat.pow_succ']

/-! ## Groups -/

/-- A complete group is read as its bytes. -/
theorem decodeFrom?_completeGroup (first second third fourth : UInt8) (rest : Bytes) :
    decodeFrom? 0 0 (encodeGroup [first, second, third, fourth] ++ rest) =
      (decodeFrom? 0 0 rest).map ([first, second, third, fourth] ++ ·) := by
  have value : Bytes.bigEndian [first, second, third, fourth] =
      ((first.toNat * 256 + second.toNat) * 256 + third.toNat) * 256 + fourth.toNat := by
    simp only [Bytes.bigEndian, List.foldl_cons, List.foldl_nil]
    omega
  have bounds := And.intro first.toNat_lt (And.intro second.toNat_lt
    (And.intro third.toNat_lt fourth.toNat_lt))
  unfold encodeGroup
  simp only [List.length_cons, List.length_nil, Nat.sub_self, List.replicate_zero, List.append_nil]
  rw [value]
  split
  · rename_i isZero
    simp only [Bool.and_eq_true, decide_eq_true_eq, and_true] at isZero
    have zero (byte : UInt8) (isNone : byte.toNat = 0) : byte = 0 := UInt8.toNat_inj.1 isNone
    rw [zero first (by omega), zero second (by omega), zero third (by omega),
      zero fourth (by omega), Option.map_eq_bind]
    rfl
  · rw [List.take_of_length_le (by simp), decodeFrom?_word (by omega), wordBytes_toUInt32,
      toUInt8_eq first (by omega), toUInt8_eq second (by omega),
      toUInt8_eq third (by omega), toUInt8_eq fourth (by omega)]

/-- The highest digits are added to a word as to a number, if that fits into 32 bits. -/
theorem foldlM_push?_highest {more value : Nat}
    (fits : value * 85 ^ more + (85 ^ more - 1) < 2 ^ 32) :
    (List.replicate more (84 : UInt8)).foldlM push? value.toUInt32 =
      some (value * 85 ^ more + (85 ^ more - 1)).toUInt32 := by
  induction more generalizing value with
  | zero => simp
  | succ more inductionHypothesis =>
      have positive : 0 < 85 ^ more := Nat.pow_pos (by decide)
      have digit : (84 : UInt8).toNat = 84 := rfl
      have next : (value * 85 + 84) * 85 ^ more + (85 ^ more - 1) =
          value * 85 ^ (more + 1) + (85 ^ (more + 1) - 1) := by
        rw [Nat.pow_succ, Nat.add_mul, Nat.mul_assoc, Nat.mul_comm 85]
        omega
      have bound : value * 85 + 84 ≤ (value * 85 + 84) * 85 ^ more :=
        Nat.le_mul_of_pos_right _ positive
      rw [List.replicate_succ, List.foldlM_cons, push?_toUInt32 (by rw [digit]; omega), digit]
      show (List.replicate more (84 : UInt8)).foldlM push? _ = _
      rw [inductionHypothesis (by omega), next]

/-- The highest digits in the place of those that are missing leave the bytes that are there. -/
theorem div_highest (more high : Nat) :
    (high * 256 ^ more / 85 ^ more * 85 ^ more + (85 ^ more - 1)) / 256 ^ more = high := by
  have positive : 0 < 85 ^ more := Nat.pow_pos (by decide)
  have smaller : 85 ^ more ≤ 256 ^ more := Nat.pow_le_pow_left (by decide) more
  have parts := Nat.div_add_mod' (high * 256 ^ more) (85 ^ more)
  have below := Nat.mod_lt (high * 256 ^ more) positive
  apply Nat.div_eq_of_lt_le
  · omega
  · rw [Nat.succ_mul]
    omega

/-- An incomplete group is read as its bytes when the data ends behind it. -/
theorem decodeFrom?_incompleteGroup (group : Bytes) (nonempty : group ≠ []) (short : group.length < 4)
    (rest : Bytes) : decodeFrom? 0 0 (encodeGroup group ++ 126 :: rest) = some group := by
  have atEnd (word : UInt32) (count : Nat) :
      decodeFrom? word count (126 :: rest) = finish? word count := by
    simp [decodeFrom?]
  -- What the reader makes of the digits that are there, with the highest ones behind them.  The
  -- bytes that are missing leave room for these in 32 bits.
  have read (high more : Nat) (isRest : group.length + more = 4)
      (isWord : Bytes.bigEndian (group ++ List.replicate (4 - group.length) 0) = high * 256 ^ more)
      (bounded : (high + 1) * 256 ^ more ≤ 2 ^ 32) :
      ∃ word, word / 256 ^ more = high ∧ decodeFrom? 0 0 (encodeGroup group ++ 126 :: rest) =
        some ((wordBytes word.toUInt32).take group.length) := by
    have room : 85 ^ more ≤ 256 ^ more := Nat.pow_le_pow_left (by decide) more
    have digitsFit := Nat.div_mul_le_self (high * 256 ^ more) (85 ^ more)
    rw [Nat.succ_mul] at bounded
    have digitPower : 0 < 85 ^ more := Nat.pow_pos (by decide)
    have notComplete : ¬((high * 256 ^ more = 0 && group.length = 4) = true) := by
      simp
      omega
    have positive : 0 < group.length := List.length_pos_iff.2 nonempty
    have quotient : high * 256 ^ more / 85 ^ more < 85 ^ (group.length + 1) := by
      rw [Nat.div_lt_iff_lt_mul digitPower, ← Nat.pow_add,
        show group.length + 1 + more = 5 by omega]
      omega
    refine ⟨_, div_highest more high, ?_⟩
    unfold encodeGroup
    dsimp only
    rw [isWord, if_neg notComplete, show 5 = group.length + 1 + more by omega, take_digits,
      decodeFrom?_digits (by omega) quotient, atEnd, finish?, if_pos (by omega),
      show 5 - (group.length + 1) = more by omega, foldlM_push?_highest (by omega),
      Nat.add_sub_cancel]
    rfl
  match group, nonempty, short with
  | [first], _, _ =>
      have bound := first.toNat_lt
      obtain ⟨word, isHigh, decoded⟩ := read first.toNat 3 rfl (by
        simp [Bytes.bigEndian, List.replicate]
        omega) (by omega)
      rw [decoded, wordBytes_toUInt32, toUInt8_eq first (by omega)]
      rfl
  | [first, second], _, _ =>
      have bounds := And.intro first.toNat_lt second.toNat_lt
      obtain ⟨word, isHigh, decoded⟩ := read (first.toNat * 256 + second.toNat) 2 rfl (by
        simp [Bytes.bigEndian, List.replicate]
        omega) (by omega)
      rw [decoded, wordBytes_toUInt32, toUInt8_eq first (by omega),
        toUInt8_eq second (by omega)]
      rfl
  | [first, second, third], _, _ =>
      have bounds := And.intro first.toNat_lt (And.intro second.toNat_lt third.toNat_lt)
      obtain ⟨word, isHigh, decoded⟩ :=
        read ((first.toNat * 256 + second.toNat) * 256 + third.toNat) 1 rfl (by
          simp [Bytes.bigEndian]
          omega) (by omega)
      rw [decoded, wordBytes_toUInt32, toUInt8_eq first (by omega),
        toUInt8_eq second (by omega), toUInt8_eq third (by omega)]
      rfl

/-! ## Texts -/

/-- The base-85 text of bytes stands for them, whatever follows it, and all its words fit into 32
bits. -/
theorem decode?_encode_append (bytes after : Bytes) : decode? (encode bytes ++ after) = some bytes := by
  unfold decode? encode
  rw [List.append_assoc]
  fun_induction Bytes.chunks 4 bytes with
  | case1 => simp [decodeFrom?, finish?]
  | case2 byte rest inductionHypothesis =>
      rw [List.flatMap_cons, List.append_assoc]
      match rest with
      | second :: third :: fourth :: rest =>
          rw [List.take_succ_cons, List.take_succ_cons, List.take_succ_cons, List.take_zero,
            decodeFrom?_completeGroup]
          exact congrArg (Option.map ([byte, second, third, fourth] ++ ·)) inductionHypothesis
      | [] | [_] | [_, _] =>
          simpa [Bytes.chunks] using
            decodeFrom?_incompleteGroup (byte :: _) (by simp) (by simp) (62 :: after)

/-- The base-85 text of bytes stands for them. -/
theorem decode_encode (bytes : Bytes) : decode (encode bytes) = bytes := by
  have isRead := decode?_encode_append bytes []
  rw [List.append_nil] at isRead
  exact decodeFrom_of_decodeFrom? isRead

end Ascii85
end Monochrome
