import Monochrome.Proofs.Filter.PrefixCode
import Monochrome.Proofs.Filter.Deflate.Copies

/-!
# Reading the parts of a coded block

A block of the fixed codes is read as the parts that it was written from, and the text is the one
that they spell.
-/

namespace Monochrome
namespace Deflate

variable {text : Array UInt8} {bits rest : Bits} {fuel : Nat}

/-! ## The fixed codes -/

/-- The fixed codes give every symbol up to a bound a length. -/
theorem mem_symbols_fixed {lengths : List Nat} {symbol : Nat} (occurs : symbol < lengths.length)
    (all : ∀ length ∈ lengths, 1 ≤ length ∧ length ≤ PrefixCode.maxLength) :
    symbol ∈ (PrefixCode.ofLengths lengths).symbols :=
  have isLength := all lengths[symbol] (List.getElem_mem occurs)
  PrefixCode.mem_symbols_ofLengths (List.getElem?_eq_getElem occurs) isLength.1 isLength.2

/-- Literals, lengths and the end of a block are read from their fixed codes. -/
theorem read?_fixedLiterals {symbol : Nat} (occurs : symbol < 288) (rest : Bits) :
    fixedLiterals.read? (fixedLiterals.bits symbol ++ rest) = some (symbol, rest) := by
  refine PrefixCode.read?_bits (mem_symbols_fixed ?_ ?_) ?_ rest
  · simp only [List.length_append, List.length_replicate]
    omega
  · decide +kernel
  · decide +kernel

/-- Distances are read from their fixed codes. -/
theorem read?_fixedDistances {symbol : Nat} (occurs : symbol < 32) (rest : Bits) :
    fixedDistances.read? (fixedDistances.bits symbol ++ rest) = some (symbol, rest) := by
  refine PrefixCode.read?_bits (mem_symbols_fixed ?_ ?_) ?_ rest
  · rwa [List.length_replicate]
  · decide +kernel
  · decide +kernel

/-! ## Lengths and distances -/

/-- A value is the start of its symbol and as much more as the extra bits say. -/
def Spells (table : Array (Nat × Nat)) (value : Nat) : Prop :=
  ∃ entry ∈ table[(symbolOf table value).1]?, entry.1 ≤ value ∧ value - entry.1 < 2 ^ entry.2 ∧
    (symbolOf table value).2 = Bits.lowFirst entry.2 (value - entry.1)

instance (table : Array (Nat × Nat)) (value : Nat) : Decidable (Spells table value) :=
  match isEntry : table[(symbolOf table value).1]? with
  | none => isFalse (by rintro ⟨entry, found, -⟩; rw [isEntry] at found; cases found)
  | some entry =>
    decidable_of_iff
      (entry.1 ≤ value ∧ value - entry.1 < 2 ^ entry.2 ∧
        (symbolOf table value).2 = Bits.lowFirst entry.2 (value - entry.1))
      (by simp [Spells, isEntry])

theorem spells_length : ∀ length < storedLength, 3 ≤ length → Spells lengthSymbols length := by
  decide +kernel

theorem spells_distance : ∀ distance < storedLength, 1 ≤ distance → Spells distanceSymbols distance := by
  decide +kernel

/-- A value is read from its extra bits. -/
theorem extended?_symbolOf {table : Array (Nat × Nat)} {value : Nat} (spelled : Spells table value)
    (rest : Bits) :
    extended? table (symbolOf table value).1 ((symbolOf table value).2 ++ rest) =
      some (value, rest) := by
  obtain ⟨entry, isEntry, least, small, isBits⟩ := spelled
  rw [extended?, Option.mem_def.mp isEntry, isBits]
  show (Bits.takeLow? entry.2 _ >>= _) = _
  rw [Bits.takeLow?_lowFirst small]
  show some (entry.1 + (value - entry.1), rest) = _
  rw [Nat.add_sub_cancel' least]

theorem symbolOf_length_lt : ∀ length < storedLength, (symbolOf lengthSymbols length).1 < 31 := by
  decide +kernel

theorem symbolOf_distance_lt :
    ∀ distance < storedLength, (symbolOf distanceSymbols distance).1 < 32 := by
  decide +kernel

/-! ## Coded blocks -/

/-- A part is read from its bits, and the text goes on with it. -/
theorem readCoded_part {part : Part} (fits : part.Fits) (rest : Bits) :
    readCoded fixedLiterals fixedDistances (fuel + 1) text (part.bits ++ rest) =
      readCoded fixedLiterals fixedDistances fuel (part.extend text) rest := by
  cases part with
  | literal byte =>
      have isByte := byte.toNat_lt
      rw [readCoded, Part.bits, read?_fixedLiterals (by omega)]
      show (if byte.toNat < 256 then _ else _) = _
      rw [if_pos isByte, Nat.toUInt8, UInt8.ofNat_toNat]
      rfl
  | copy copied =>
      obtain ⟨long, short, behind, near⟩ := fits
      have lengthSymbol := symbolOf_length_lt copied.length short
      have distanceSymbol := symbolOf_distance_lt copied.distance near
      have noByte : ¬endSymbol + 1 + (symbolOf lengthSymbols copied.length).1 < 256 := by
        rw [endSymbol]
        omega
      have noEnd : ¬endSymbol + 1 + (symbolOf lengthSymbols copied.length).1 = endSymbol := by omega
      simp only [Part.bits, List.append_assoc]
      rw [readCoded, read?_fixedLiterals (by rw [endSymbol]; omega)]
      show (if _ then _ else _) = _
      rw [if_neg noByte, if_neg noEnd, Nat.add_sub_cancel_left,
        extended?_symbolOf (spells_length _ short long)]
      show (fixedDistances.read? _ >>= _) = _
      rw [read?_fixedDistances distanceSymbol]
      show (extended? distanceSymbols _ _ >>= _) = _
      rw [extended?_symbolOf (spells_distance _ near behind)]
      rfl

/-- Parts are read from their bits up to the end of the block. -/
theorem readCoded_parts {parts : List Part} (fits : ∀ part ∈ parts, part.Fits)
    (enough : parts.length < fuel) (rest : Bits) :
    readCoded fixedLiterals fixedDistances fuel text
        (parts.flatMap Part.bits ++ fixedLiterals.bits endSymbol ++ rest) =
      some (parts.foldl Part.extend text, rest) := by
  induction parts generalizing text fuel with
  | nil =>
      match fuel with
      | 0 => cases enough
      | fuel + 1 =>
          rw [List.flatMap_nil, List.nil_append, readCoded, read?_fixedLiterals (by decide)]
          rfl
  | cons part parts inductionHypothesis =>
      match fuel with
      | 0 => cases enough
      | fuel + 1 =>
          rw [List.flatMap_cons, List.append_assoc, List.append_assoc, readCoded_part
            (fits part List.mem_cons_self), ← List.append_assoc, inductionHypothesis
            (fun other among => fits other (List.mem_cons_of_mem _ among))
            (Nat.lt_of_succ_lt_succ enough)]
          rfl

end Deflate
end Monochrome
