import Monochrome.Filter.Bits

/-!
# Numbers and bytes as bits

A number is read from the bits that spell it, in either order and whatever follows them.  Bits that
are packed into bytes are the same again, up to the zeros that fill the last byte.
-/

namespace Monochrome
namespace Bits

variable {width value : Nat} {bits rest : Bits}

@[simp] theorem length_lowFirst (width value : Nat) : (lowFirst width value).length = width := by
  induction width generalizing value with
  | zero => rfl
  | succ width inductionHypothesis => simp [lowFirst, inductionHypothesis]

@[simp] theorem length_highFirst (width value : Nat) : (highFirst width value).length = width := by
  simp [highFirst]

/-- The bits of a number spell it, as far as there are as many. -/
theorem valueLow_lowFirst (width value : Nat) : valueLow (lowFirst width value) = value % 2 ^ width := by
  induction width generalizing value with
  | zero => simp [lowFirst, valueLow, Nat.mod_one]
  | succ width inductionHypothesis =>
      rw [lowFirst, valueLow, inductionHypothesis, Nat.pow_succ', Nat.mod_mul]
      congr 1
      rcases Nat.mod_two_eq_zero_or_one value with even | odd
      · rw [even]
        rfl
      · rw [odd]
        rfl

/-- One more bit in front counts for as much as there are bits. -/
theorem valueHigh_foldl (start : Nat) (bits : Bits) :
    bits.foldl (fun value bit => 2 * value + bit.toNat) start =
      start * 2 ^ bits.length + valueHigh bits := by
  induction bits generalizing start with
  | nil => simp [valueHigh]
  | cons bit rest inductionHypothesis =>
      rw [valueHigh, List.foldl_cons, List.foldl_cons, inductionHypothesis,
        inductionHypothesis (2 * 0 + bit.toNat), List.length_cons, Nat.pow_succ', Nat.mul_zero,
        Nat.zero_add, Nat.add_mul, Nat.mul_left_comm, Nat.mul_assoc, Nat.add_assoc]

/-- Bits in front of others count for as much as there are others. -/
theorem valueHigh_append (bits others : Bits) :
    valueHigh (bits ++ others) = valueHigh bits * 2 ^ others.length + valueHigh others := by
  rw [valueHigh, List.foldl_append, valueHigh_foldl]
  rfl

/-- Bits spell the same number in either order. -/
theorem valueHigh_reverse (bits : Bits) : valueHigh bits.reverse = valueLow bits := by
  induction bits with
  | nil => rfl
  | cons bit rest inductionHypothesis =>
      rw [List.reverse_cons, valueHigh, List.foldl_append]
      have reversed : rest.reverse.foldl (fun value bit => 2 * value + bit.toNat) 0 =
          valueLow rest := inductionHypothesis
      rw [reversed, List.foldl_cons, List.foldl_nil, valueLow, Nat.add_comm]

/-- The first bits are split off. -/
theorem split?_append (isWidth : bits.length = width) (rest : Bits) :
    split? width (bits ++ rest) = some (bits, rest) := by
  subst isWidth
  simp [split?]

/-- A number is read from its bits, the least significant first. -/
theorem takeLow?_lowFirst (bounded : value < 2 ^ width) (rest : Bits) :
    takeLow? width (lowFirst width value ++ rest) = some (value, rest) := by
  rw [takeLow?, split?_append (length_lowFirst width value), Option.map_some]
  dsimp only
  rw [valueLow_lowFirst, Nat.mod_eq_of_lt bounded]

/-- A number is read from its bits, the most significant first. -/
theorem takeHigh?_highFirst (bounded : value < 2 ^ width) (rest : Bits) :
    takeHigh? width (highFirst width value ++ rest) = some (value, rest) := by
  rw [takeHigh?, split?_append (length_highFirst width value), Option.map_some]
  dsimp only
  rw [highFirst, valueHigh_reverse, valueLow_lowFirst, Nat.mod_eq_of_lt bounded]

/-- A number of as many bits is spelled by them, the least significant first. -/
theorem lowFirst_valueLow (bits : Bits) : lowFirst bits.length (valueLow bits) = bits := by
  induction bits with
  | nil => rfl
  | cons bit rest inductionHypothesis =>
      have isBit : bit.toNat ≤ 1 := by cases bit <;> decide
      have half : (bit.toNat + 2 * valueLow rest) / 2 = valueLow rest := by omega
      have first : ((bit.toNat + 2 * valueLow rest) % 2 == 1) = bit := by
        rw [Nat.add_mul_mod_self_left]
        cases bit <;> rfl
      rw [List.length_cons, valueLow, lowFirst, half, inductionHypothesis, first]

/-- A number of as many bits is spelled by them, the most significant first. -/
theorem highFirst_valueHigh (bits : Bits) : highFirst bits.length (valueHigh bits) = bits := by
  have reversed := lowFirst_valueLow bits.reverse
  rw [← valueHigh_reverse, List.reverse_reverse, List.length_reverse] at reversed
  rw [highFirst, reversed, List.reverse_reverse]

/-- Only as many bits of a number matter as are spelled. -/
theorem lowFirst_mod (width value : Nat) : lowFirst width (value % 2 ^ width) = lowFirst width value := by
  have spelled := lowFirst_valueLow (lowFirst width value)
  rwa [length_lowFirst, valueLow_lowFirst] at spelled

/-- The bits of a byte are the lowest of the number that it is made of. -/
theorem lowFirst_toUInt8 (value : Nat) : lowFirst 8 value.toUInt8.toNat = lowFirst 8 value := by
  rw [Nat.toUInt8, UInt8.toNat_ofNat', lowFirst_mod]

/-- The bits of a number are those of its lower and of its upper part. -/
theorem lowFirst_add (lower upper value : Nat) :
    lowFirst (lower + upper) value = lowFirst lower value ++ lowFirst upper (value / 2 ^ lower) := by
  induction lower generalizing value with
  | zero => rw [Nat.zero_add, Nat.pow_zero, Nat.div_one, lowFirst, List.nil_append]
  | succ lower inductionHypothesis =>
      rw [Nat.succ_add, lowFirst, inductionHypothesis, lowFirst, List.cons_append,
        Nat.div_div_eq_div_mul, ← Nat.pow_succ']

/-- Bits spell a number below as many doublings. -/
theorem valueLow_lt (bits : Bits) : valueLow bits < 2 ^ bits.length := by
  induction bits with
  | nil => decide
  | cons bit rest inductionHypothesis =>
      have isBit : bit.toNat ≤ 1 := by cases bit <;> decide
      rw [valueLow, List.length_cons, Nat.pow_succ]
      omega

theorem valueHigh_lt (bits : Bits) : valueHigh bits < 2 ^ bits.length := by
  rw [← List.reverse_reverse bits, valueHigh_reverse, List.length_reverse]
  exact valueLow_lt _

/-- More zeros do not matter to a number that starts with its least significant bit. -/
theorem valueLow_append_zeros (bits : Bits) (count : Nat) :
    valueLow (bits ++ List.replicate count false) = valueLow bits := by
  induction bits with
  | nil =>
      induction count with
      | zero => rfl
      | succ count inductionHypothesis =>
          rw [List.nil_append] at inductionHypothesis ⊢
          rw [List.replicate_succ]
          show 0 + 2 * valueLow (List.replicate count false) = 0
          rw [inductionHypothesis]
          rfl
  | cons bit rest inductionHypothesis => rw [List.cons_append, valueLow, valueLow, inductionHypothesis]

/-- The bits of a byte are at hand once their number is a byte. -/
theorem toNat_toUInt8_of_lt (bounded : value < 2 ^ 8) : value.toUInt8.toNat = value := by
  rw [Nat.toUInt8, UInt8.toNat_ofNat']
  exact Nat.mod_eq_of_lt bounded

/-- Bits are the first of themselves filled up with zeros. -/
theorem append_zeros (short : bits.length ≤ width) :
    (bits ++ List.replicate (width - bits.length) false).length = width := by
  rw [List.length_append, List.length_replicate]
  omega

/-- A byte starts with the bits that were packed into it, the least significant first. -/
theorem lowFirst_packed (short : bits.length ≤ 8) :
    lowFirst 8 (valueLow bits).toUInt8.toNat = bits ++ List.replicate (8 - bits.length) false := by
  have bound := valueLow_lt (bits ++ List.replicate (8 - bits.length) false)
  have spelled := lowFirst_valueLow (bits ++ List.replicate (8 - bits.length) false)
  rw [append_zeros short, valueLow_append_zeros] at bound spelled
  rw [toNat_toUInt8_of_lt bound, spelled]

/-- A byte starts with the bits that were packed into it, the most significant first. -/
theorem highFirst_packed (short : bits.length ≤ 8) :
    highFirst 8 (valueHigh (bits ++ List.replicate (8 - bits.length) false)).toUInt8.toNat =
      bits ++ List.replicate (8 - bits.length) false := by
  have spelled := highFirst_valueHigh (bits ++ List.replicate (8 - bits.length) false)
  have bound := valueLow_lt (bits ++ List.replicate (8 - bits.length) false).reverse
  rw [← valueHigh_reverse, List.reverse_reverse, List.length_reverse, append_zeros short] at bound
  rw [append_zeros short] at spelled
  rw [toNat_toUInt8_of_lt bound, spelled]

/-- The zeros that fill a packed byte have nothing but zeros behind them. -/
theorem packed_append (bit : Bool) (bits : Bits) (count : Nat) :
    (bit :: bits.take 7) ++ List.replicate (8 - (bit :: bits.take 7).length) false ++
        (bits.drop 7 ++ List.replicate count false) =
      (bit :: bits) ++ List.replicate (8 - (bit :: bits.take 7).length + count) false := by
  by_cases full : 7 ≤ bits.length
  · have filled : 8 - (bit :: bits.take 7).length = 0 := by
      rw [List.length_cons, List.length_take]
      omega
    rw [filled, List.replicate_zero, List.append_nil, Nat.zero_add, List.cons_append,
      List.cons_append, ← List.append_assoc, List.take_append_drop]
  · have short : bits.length ≤ 7 := by omega
    rw [List.take_of_length_le short, List.drop_of_length_le short, List.nil_append,
      List.append_assoc, List.replicate_append_replicate]

theorem length_packed (bit : Bool) (bits : Bits) : (bit :: bits.take 7).length ≤ 8 := by
  rw [List.length_cons, List.length_take]
  omega

/-- Zeros fill up the last byte only. -/
theorem filled_lt (bit : Bool) {bits : Bits} {count : Nat} (few : count < 8)
    (none : bits.drop 7 = [] → count = 0) : 8 - (bit :: bits.take 7).length + count < 8 := by
  rw [List.length_cons, List.length_take]
  by_cases full : 7 ≤ bits.length
  · omega
  · have last := none (List.drop_of_length_le (by omega))
    omega

/-- Packed bits are the same again, with zeros behind them that fill up the last byte. -/
theorem ofBytesLow_toBytesLow (bits : Bits) :
    ∃ count < 8, ofBytesLow (toBytesLow bits) = bits ++ List.replicate count false := by
  fun_induction toBytesLow bits with
  | case1 => exact ⟨0, by decide, rfl⟩
  | case2 bit rest inductionHypothesis =>
      obtain ⟨count, few, packed⟩ := inductionHypothesis
      have none : rest.drop 7 = [] → count = 0 := by
        intro last
        rw [last, toBytesLow] at packed
        simpa [ofBytesLow] using packed
      rw [ofBytesLow] at packed ⊢
      rw [List.flatMap_cons, lowFirst_packed (length_packed bit rest), packed, packed_append]
      exact ⟨_, filled_lt bit few none, rfl⟩

/-- Packed bits are the same again, with zeros behind them. -/
theorem ofBytesHigh_toBytesHigh (bits : Bits) :
    ∃ count, ofBytesHigh (toBytesHigh bits) = bits ++ List.replicate count false := by
  fun_induction toBytesHigh bits with
  | case1 => exact ⟨0, rfl⟩
  | case2 bit rest first inductionHypothesis =>
      obtain ⟨count, packed⟩ := inductionHypothesis
      have isFirst : first = bit :: rest.take 7 := rfl
      rw [ofBytesHigh] at packed ⊢
      rw [List.flatMap_cons, isFirst, highFirst_packed (length_packed bit rest), packed,
        packed_append]
      exact ⟨_, rfl⟩

@[simp] theorem length_ofBytesLow (bytes : Bytes) : (ofBytesLow bytes).length = 8 * bytes.length := by
  induction bytes with
  | nil => rfl
  | cons byte rest inductionHypothesis =>
      rw [ofBytesLow] at inductionHypothesis ⊢
      rw [List.flatMap_cons, List.length_append, length_lowFirst, inductionHypothesis,
        List.length_cons]
      omega

@[simp] theorem length_ofBytesHigh (bytes : Bytes) :
    (ofBytesHigh bytes).length = 8 * bytes.length := by
  induction bytes with
  | nil => rfl
  | cons byte rest inductionHypothesis =>
      rw [ofBytesHigh] at inductionHypothesis ⊢
      rw [List.flatMap_cons, List.length_append, length_highFirst, inductionHypothesis,
        List.length_cons]
      omega

/-- The bits of bytes are those of the parts. -/
theorem ofBytesLow_append (bytes others : Bytes) :
    ofBytesLow (bytes ++ others) = ofBytesLow bytes ++ ofBytesLow others :=
  List.flatMap_append

theorem ofBytesHigh_append (bytes others : Bytes) :
    ofBytesHigh (bytes ++ others) = ofBytesHigh bytes ++ ofBytesHigh others :=
  List.flatMap_append

theorem ofBytesLow_cons (byte : UInt8) (bytes : Bytes) :
    ofBytesLow (byte :: bytes) = lowFirst 8 byte.toNat ++ ofBytesLow bytes :=
  List.flatMap_cons

end Bits
end Monochrome
