import Monochrome.Proofs.Filter.Bits
import Monochrome.Filter.PrefixCode

/-!
# Reading canonical prefix codes

The codes of one length follow the shorter codes, so the start of a code is never below the end of
the codes that are as short as it: a reader that goes bit by bit stops at the last bit of a code
and no sooner.
-/

namespace Monochrome
namespace PrefixCode

variable {counts : List Nat} {lengths : List Nat}

/-! ## Codes as numbers -/

/-- The bits of a number are its high bit and the bits of the rest. -/
theorem highFirst_succ (width value : Nat) :
    Bits.highFirst (width + 1) value =
      (value / 2 ^ width % 2 == 1) :: Bits.highFirst width value := by
  induction width generalizing value with
  | zero => simp [Bits.highFirst, Bits.lowFirst]
  | succ width inductionHypothesis =>
      have halves : Bits.highFirst (width + 2) value =
          Bits.highFirst (width + 1) (value / 2) ++ [value % 2 == 1] := by
        rw [Bits.highFirst, Bits.lowFirst, List.reverse_cons]
        rfl
      have half : Bits.highFirst (width + 1) value =
          Bits.highFirst width (value / 2) ++ [value % 2 == 1] := by
        rw [Bits.highFirst, Bits.lowFirst, List.reverse_cons]
        rfl
      rw [halves, inductionHypothesis, half, Nat.div_div_eq_div_mul, ← Nat.pow_succ']
      rfl

/-- A number is its upper half with the bit in between. -/
theorem two_mul_div_add (value width : Nat) :
    2 * (value / 2 ^ (width + 1)) + (value / 2 ^ width % 2 == 1).toNat = value / 2 ^ width := by
  rw [Nat.pow_succ, ← Nat.div_div_eq_div_mul]
  rcases Nat.mod_two_eq_zero_or_one (value / 2 ^ width) with even | odd
  · rw [even]
    show 2 * (value / 2 ^ width / 2) + 0 = _
    omega
  · rw [odd]
    show 2 * (value / 2 ^ width / 2) + 1 = _
    omega

/-- No length has more codes than bits can tell apart. -/
def Bounded : List Nat → Nat → Nat → Prop
  | [], _, _ => True
  | count :: counts, width, first =>
    first + count ≤ 2 ^ width ∧ Bounded counts (width + 1) (2 * (first + count))

instance decidableBounded : (counts : List Nat) → (width first : Nat) →
    Decidable (Bounded counts width first)
  | [], _, _ => inferInstanceAs (Decidable True)
  | count :: counts, width, first =>
    have := decidableBounded counts (width + 1) (2 * (first + count))
    inferInstanceAs (Decidable (_ ∧ _))

/-- A code is a number of at least the width of the first codes, and from its first bits on it is
read as the symbol at its position. -/
theorem readFrom_bitsFrom {width first position : Nat} (within : position < counts.sum)
    (bounded : Bounded counts width first) :
    ∃ value extra, bitsFrom counts width first position = Bits.highFirst (width + extra) value ∧
      value < 2 ^ (width + extra) ∧ first * 2 ^ extra ≤ value ∧
      ∀ (symbols : Array Nat) (passed : Nat) (rest : Bits),
        readFrom symbols counts first passed (value / 2 ^ (extra + 1))
            (Bits.highFirst (extra + 1) value ++ rest) =
          (symbols[passed + position]?).map fun symbol => (symbol, rest) := by
  induction counts generalizing width first position with
  | nil => cases within
  | cons count counts inductionHypothesis =>
      obtain ⟨few, bounded⟩ := bounded
      by_cases isHere : position < count
      · refine ⟨first + position, 0, by rw [bitsFrom, if_pos isHere]; rfl,
          Nat.lt_of_lt_of_le (Nat.add_lt_add_left isHere first) few, by omega, ?_⟩
        intro symbols passed rest
        have whole := two_mul_div_add (first + position) 0
        rw [Nat.pow_zero, Nat.div_one] at whole
        rw [highFirst_succ, Nat.pow_zero, Nat.div_one, List.cons_append, readFrom,
          whole, if_pos (Nat.add_lt_add_left isHere first), Nat.add_sub_cancel_left]
        rfl
      · rw [List.sum_cons] at within
        obtain ⟨value, extra, isBits, small, least, isRead⟩ :=
          inductionHypothesis
            (show position - count < counts.sum by omega) bounded
        refine ⟨value, extra + 1, ?_, ?_, ?_, ?_⟩
        · rw [bitsFrom, if_neg isHere, isBits, Nat.add_right_comm, Nat.add_assoc]
        · rwa [Nat.add_right_comm, Nat.add_assoc] at small
        · rw [Nat.pow_succ']
          calc first * (2 * 2 ^ extra) = 2 * first * 2 ^ extra := by
                rw [← Nat.mul_assoc, Nat.mul_comm first 2]
            _ ≤ 2 * (first + count) * 2 ^ extra := Nat.mul_le_mul_right _ (by omega)
            _ ≤ value := least
        · intro symbols passed rest
          have beyond : first + count ≤ value / 2 ^ (extra + 1) := by
            rw [Nat.le_div_iff_mul_le (Nat.two_pow_pos _), Nat.pow_succ', ← Nat.mul_assoc,
              Nat.mul_comm _ 2]
            exact least
          rw [highFirst_succ, List.cons_append, readFrom, two_mul_div_add, if_neg (Nat.not_lt.mpr beyond), isRead, Nat.add_assoc,
            Nat.add_sub_cancel' (Nat.not_lt.mp isHere)]

/-! ## The symbols of a code -/

/-- There are as many symbols as codes. -/
theorem size_symbols_ofLengths (lengths : List Nat) :
    (ofLengths lengths).symbols.size = (ofLengths lengths).counts.sum := by
  simp [ofLengths, List.length_flatten]

/-- A symbol whose code has a length has a code. -/
theorem mem_symbols_ofLengths {symbol length : Nat} (isLength : lengths[symbol]? = some length)
    (nonzero : 1 ≤ length) (short : length ≤ maxLength) : symbol ∈ (ofLengths lengths).symbols := by
  have among : symbol ∈ symbolsOfLength lengths length := by
    rw [symbolsOfLength, List.mem_map]
    refine ⟨(length, symbol), List.mem_filter.mpr ⟨?_, by simp⟩, rfl⟩
    rwa [List.mem_zipIdx_iff_getElem?]
  rw [ofLengths, List.mem_toArray, List.mem_flatten]
  refine ⟨_, List.mem_map.mpr ⟨length - 1, List.mem_range.mpr (by omega), rfl⟩, ?_⟩
  rwa [Nat.sub_add_cancel nonzero]

/-- Nothing is read from no bits. -/
@[simp] theorem read?_nil (prefixCode : PrefixCode) : prefixCode.read? [] = none := by
  rw [read?]
  cases prefixCode.counts <;> rfl

/-- A symbol is read from its code, and what follows stays. -/
theorem read?_bits {symbol : Nat} (isSymbol : symbol ∈ (ofLengths lengths).symbols)
    (bounded : Bounded (ofLengths lengths).counts 1 0) (rest : Bits) :
    (ofLengths lengths).read? ((ofLengths lengths).bits symbol ++ rest) = some (symbol, rest) := by
  cases isIndex : (ofLengths lengths).symbols.idxOf? symbol with
  | none => exact absurd isSymbol (Array.idxOf?_eq_none_iff.mp isIndex)
  | some position =>
      have found : (ofLengths lengths).symbols[position]? = some symbol := by
        have isFound := isIndex
        rw [Array.idxOf?_eq_map_finIdxOf?_val] at isFound
        obtain ⟨index, isIndexed, rfl⟩ := Option.map_eq_some_iff.mp isFound
        have isThere := (Array.finIdxOf?_eq_some_iff.mp isIndexed).1
        exact (Array.getElem?_eq_getElem index.isLt).trans (congrArg some isThere)
      have within : position < (ofLengths lengths).counts.sum := by
        rw [← size_symbols_ofLengths]
        exact (Array.getElem?_eq_some_iff.mp found).1
      obtain ⟨value, extra, isBits, small, -, isRead⟩ := readFrom_bitsFrom within bounded
      have read := isRead (ofLengths lengths).symbols 0 rest
      rw [Nat.add_comm extra 1, Nat.div_eq_of_lt small, Nat.zero_add, found] at read
      rw [bits, isIndex]
      dsimp only
      rw [isBits, read?, read]
      rfl

end PrefixCode
end Monochrome
