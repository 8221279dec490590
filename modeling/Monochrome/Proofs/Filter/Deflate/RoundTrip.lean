import Monochrome.Proofs.Filter.Deflate.Codes

/-!
# Deflate data stands for its text

Whatever the writer makes of a text, one coded block or stored ones, the blocks are read as the
text, and the checksum that follows is found where the last byte of the blocks ends.
-/

namespace Monochrome

namespace Bytes

/-- Pieces are the bytes again when they are joined. -/
theorem flatten_chunks (size : Nat) (bytes : Bytes) : (chunks size bytes).flatten = bytes := by
  fun_induction chunks size bytes with
  | case1 => rfl
  | case2 byte rest inductionHypothesis =>
      rw [List.flatten_cons, inductionHypothesis, List.cons_append, List.take_append_drop]

/-- No piece is longer than the given length. -/
theorem length_le_of_mem_chunks {size : Nat} {bytes piece : Bytes} (nonzero : 0 < size)
    (isPiece : piece ∈ chunks size bytes) : piece.length ≤ size := by
  fun_induction chunks size bytes with
  | case1 => cases isPiece
  | case2 byte rest inductionHypothesis =>
      rcases List.mem_cons.mp isPiece with rfl | later
      · rw [List.length_cons, List.length_take]
        omega
      · exact inductionHypothesis later

end Bytes

namespace Deflate

variable {text : Array UInt8} {bits rest : Bits} {fuel : Nat}

/-! ## Bytes among bits -/

/-- Zeros that fill up a byte are dropped. -/
theorem align_replicate {count : Nat} (few : count < 8) (whole : rest.length % 8 = 0) :
    align (List.replicate count false ++ rest) = rest := by
  have behind : (List.replicate count false ++ rest).length % 8 = count := by
    rw [List.length_append, List.length_replicate]
    omega
  rw [align, behind, List.drop_left' (List.length_replicate)]

/-- Bytes are taken from their bits. -/
theorem takeBytes?_ofBytesLow (bytes : Bytes) (rest : Bits) :
    takeBytes? bytes.length (Bits.ofBytesLow bytes ++ rest) = some (bytes, rest) := by
  induction bytes with
  | nil => rfl
  | cons byte bytes inductionHypothesis =>
      rw [Bits.ofBytesLow_cons, List.append_assoc, List.length_cons, takeBytes?,
        Bits.takeLow?_lowFirst byte.toNat_lt]
      show (takeBytes? bytes.length _ >>= _) = _
      rw [inductionHypothesis]
      show some (byte.toNat.toUInt8 :: bytes, rest) = _
      rw [Nat.toUInt8, UInt8.ofNat_toNat]

/-! ## Coded blocks -/

/-- A fixed code takes a bit, since nothing is read from no bits. -/
theorem length_fixedLiterals_pos {symbol : Nat} (occurs : symbol < 288) :
    0 < (fixedLiterals.bits symbol).length := by
  have isRead := read?_fixedLiterals occurs []
  cases isBits : fixedLiterals.bits symbol with
  | nil =>
      rw [isBits, List.nil_append, PrefixCode.read?_nil] at isRead
      cases isRead
  | cons => exact Nat.zero_lt_succ _

/-- Every part takes a bit. -/
theorem length_bits_pos {part : Part} (fits : part.Fits) : 0 < part.bits.length := by
  cases part with
  | literal byte =>
      have isByte := byte.toNat_lt
      exact length_fixedLiterals_pos (by omega)
  | copy copied =>
      have lengthSymbol := symbolOf_length_lt copied.length fits.2.1
      have occurs : endSymbol + 1 + (symbolOf lengthSymbols copied.length).1 < 288 := by
        rw [endSymbol]
        omega
      have takes := length_fixedLiterals_pos occurs
      simp only [Part.bits, List.length_append]
      omega

theorem length_le_flatMap_bits {parts : List Part} (fits : ∀ part ∈ parts, part.Fits) :
    parts.length ≤ (parts.flatMap Part.bits).length := by
  induction parts with
  | nil => exact Nat.le_refl 0
  | cons part parts inductionHypothesis =>
      have first := length_bits_pos (fits part List.mem_cons_self)
      have later := inductionHypothesis fun other among => fits other (List.mem_cons_of_mem _ among)
      rw [List.flatMap_cons, List.length_append, List.length_cons]
      omega

/-- A block is read after its kind, and is the last one if it says so. -/
theorem readBlocks_block (fuel : Nat) (text : Array UInt8) (last : Bool) {kind : Nat}
    (isKind : kind < 2 ^ 2) (rest : Bits) :
    readBlocks (fuel + 1) text (Bits.lowFirst 1 last.toNat ++ (Bits.lowFirst 2 kind ++ rest)) =
      (readBlock kind text rest).bind fun read =>
        if last then some read else readBlocks fuel read.1 read.2 := by
  have isLast : last.toNat < 2 ^ 1 := by cases last <;> decide
  simp only [readBlocks, Bits.takeLow?_lowFirst isLast, Bits.takeLow?_lowFirst isKind,
    Option.bind_eq_bind, Option.bind_some]
  refine congrArg _ (funext fun read => ?_)
  cases last <;> rfl

/-- A coded block of a short text is read as the text. -/
theorem readBlocks_codedBlock {bytes : Bytes} (short : bytes.length < storedLength) (rest : Bits) :
    readBlocks (fuel + 1) #[] (codedBlock bytes ++ rest) = some (bytes.toArray, rest) := by
  have held : Held [] bytes none := trivial
  have fits : ∀ part ∈ parts [] none bytes, part.Fits := fun part among =>
    fits_of_mem_parts held (by simpa using short) among
  have enough : (parts [] none bytes).length <
      ((parts [] none bytes).flatMap Part.bits ++ fixedLiterals.bits endSymbol ++ rest).length + 1 := by
    have some := length_le_flatMap_bits fits
    simp only [List.length_append]
    omega
  have isRead := readBlocks_block fuel #[] true (show 1 < 2 ^ 2 by decide)
    ((parts [] none bytes).flatMap Part.bits ++ fixedLiterals.bits endSymbol ++ rest)
  rw [readBlock, readCoded_parts fits enough, Option.bind_some, if_pos rfl] at isRead
  simp only [codedBlock, List.append_assoc] at isRead ⊢
  refine isRead.trans ?_
  exact congrArg (fun text => some (text, rest)) (congrArg List.toArray (foldl_parts_whole bytes))

/-! ## Stored blocks -/

/-- A number of two bytes is read from them. -/
theorem takeLow?_littleEndian {value : Nat} (small : value < 2 ^ 16) (rest : Bits) :
    Bits.takeLow? 16 (Bits.ofBytesLow (littleEndian value) ++ rest) = some (value, rest) := by
  have bits : Bits.ofBytesLow (littleEndian value) = Bits.lowFirst 16 value := by
    rw [littleEndian, Bits.ofBytesLow_cons, Bits.ofBytesLow_cons, Bits.lowFirst_toUInt8,
      Bits.lowFirst_toUInt8]
    exact (Bits.lowFirst_add 8 8 value).symm
  rw [bits, Bits.takeLow?_lowFirst small]

/-- A stored block is read as its bytes. -/
theorem readBlock_stored {bytes : Bytes} (small : bytes.length ≤ 65535)
    (whole : rest.length % 8 = 0) :
    readBlock 0 text (List.replicate 5 false ++ (Bits.ofBytesLow (littleEndian bytes.length) ++
        (Bits.ofBytesLow (littleEndian (65535 - bytes.length)) ++
          (Bits.ofBytesLow bytes ++ rest)))) =
      some (text ++ bytes, rest) := by
  have both : bytes.length + (65535 - bytes.length) = 65535 := by omega
  rw [readBlock, align_replicate (by decide), takeLow?_littleEndian (by omega)]
  · simp only [Option.bind_eq_bind, Option.bind_some]
    rw [takeLow?_littleEndian (by omega)]
    simp only [Option.bind_some]
    rw [if_pos both, takeBytes?_ofBytesLow]
    rfl
  · simp only [List.length_append, Bits.length_ofBytesLow]
    omega

/-- A stored block is read as its bytes. -/
theorem readBlocks_storedBlock {last : Bool} {bytes : Bytes} (small : bytes.length ≤ 65535)
    (whole : rest.length % 8 = 0) :
    readBlocks (fuel + 1) text (Bits.ofBytesLow (storedBlock last bytes) ++ rest) =
      if last then some (text ++ bytes, rest) else readBlocks fuel (text ++ bytes) rest := by
  have header : Bits.lowFirst 8 last.toUInt8.toNat =
      Bits.lowFirst 1 last.toNat ++ (Bits.lowFirst 2 0 ++ List.replicate 5 false) := by
    cases last <;> rfl
  rw [storedBlock, Bits.ofBytesLow_cons, header]
  simp only [Bits.ofBytesLow_append, List.append_assoc]
  rw [readBlocks_block _ _ _ (by decide), readBlock_stored small whole]
  rfl

/-- Stored blocks are read as their pieces. -/
theorem readBlocks_storedBlocks {pieces : List Bytes} (small : ∀ piece ∈ pieces, piece.length ≤ 65535)
    (enough : pieces.length < fuel) (whole : rest.length % 8 = 0) :
    readBlocks fuel text (Bits.ofBytesLow (storedBlocks pieces) ++ rest) =
      some (text ++ pieces.flatten, rest) := by
  fun_induction storedBlocks pieces generalizing fuel text with
  | case1 =>
      match fuel with
      | 0 => cases enough
      | fuel + 1 => rw [readBlocks_storedBlock (by decide) whole]; rfl
  | case2 piece =>
      match fuel with
      | 0 => cases enough
      | fuel + 1 =>
          rw [readBlocks_storedBlock (small piece List.mem_cons_self) whole, if_pos rfl]
          simp
  | case3 piece pieces more inductionHypothesis =>
      match fuel with
      | 0 => cases enough
      | fuel + 1 =>
          have behind : (Bits.ofBytesLow (storedBlocks pieces) ++ rest).length % 8 = 0 := by
            rw [List.length_append, Bits.length_ofBytesLow]
            omega
          rw [Bits.ofBytesLow_append, List.append_assoc,
            readBlocks_storedBlock (small piece List.mem_cons_self) behind, if_neg (by decide),
            inductionHypothesis (fun other among => small other (List.mem_cons_of_mem _ among))
              (Nat.lt_of_succ_lt_succ enough), List.flatten_cons]
          exact congrArg (fun text => some (text, rest)) (Array.ext' (by simp))

/-- Every block takes a byte. -/
theorem length_le_storedBlocks (pieces : List Bytes) :
    pieces.length ≤ (storedBlocks pieces).length := by
  fun_induction storedBlocks pieces with
  | case1 => exact Nat.zero_le _
  | case2 piece => exact Nat.succ_le_succ (Nat.zero_le _)
  | case3 piece pieces more inductionHypothesis =>
      rw [List.length_append, storedBlock, List.length_cons, List.length_cons]
      omega

/-! ## The whole data -/

/-- The blocks of a text are read as the text, and zeros may fill up their last byte. -/
theorem readBlocks_blocks (text : Bytes) (whole : rest.length % 8 = 0) :
    ∃ count < 8, readBlocks ((Bits.ofBytesLow (blocks text) ++ rest).length + 1) #[]
        (Bits.ofBytesLow (blocks text) ++ rest) =
      some (text.toArray, List.replicate count false ++ rest) := by
  rw [blocks]
  cases isCoded : coded? text with
  | some data =>
      rw [coded?] at isCoded
      split at isCoded
      next short =>
        dsimp only at isCoded
        split at isCoded
        next =>
          cases isCoded
          obtain ⟨count, few, packed⟩ := Bits.ofBytesLow_toBytesLow (codedBlock text)
          refine ⟨count, few, ?_⟩
          rw [Option.getD_some, packed, List.append_assoc, readBlocks_codedBlock short]
        next => cases isCoded
      next => cases isCoded
  | none =>
      refine ⟨0, by decide, ?_⟩
      have pieces := length_le_storedBlocks (Bytes.chunks 65535 text)
      rw [Option.getD_none, readBlocks_storedBlocks
        (fun piece among => Bytes.length_le_of_mem_chunks (by decide) among) _ whole,
        Bytes.flatten_chunks]
      · exact congrArg (fun text => some (text, rest)) (Array.ext' (by simp))
      · rw [List.length_append, Bits.length_ofBytesLow]
        omega

/-- The sums of a checksum after another byte. -/
def addByte (sums : Nat × Nat) (byte : UInt8) : Nat × Nat :=
  ((sums.1 + byte.toNat) % 65521, (sums.2 + (sums.1 + byte.toNat) % 65521) % 65521)

/-- A checksum is made of the sums after all bytes. -/
theorem checksum_eq (bytes : Bytes) :
    checksum bytes = (bytes.foldl addByte (1, 0)).2 * 65536 + (bytes.foldl addByte (1, 0)).1 :=
  rfl

/-- Both sums of a checksum stay below their modulus. -/
theorem checksum_lt (bytes : Bytes) : checksum bytes < 2 ^ 32 := by
  have both : (bytes.foldl addByte (1, 0)).1 < 65521 ∧ (bytes.foldl addByte (1, 0)).2 < 65521 :=
    List.foldlRecOn (motive := fun sums => sums.1 < 65521 ∧ sums.2 < 65521) bytes addByte
      ⟨by decide, by decide⟩
      fun _ _ _ _ => ⟨Nat.mod_lt _ (by decide), Nat.mod_lt _ (by decide)⟩
  rw [checksum_eq]
  omega

/-- Four bytes spell the number that they are written from. -/
theorem bigEndian_four {value : Nat} (small : value < 2 ^ 32) :
    Bytes.bigEndian [(value / 16777216).toUInt8, (value / 65536).toUInt8, (value / 256).toUInt8,
      value.toUInt8] = value := by
  simp only [Bytes.bigEndian, List.foldl_cons, List.foldl_nil, Nat.toUInt8, UInt8.toNat_ofNat']
  omega

/-- Deflate data is read as the text that it was written from. -/
theorem decode_encode (text : Bytes) : decode (encode text) = some text := by
  have isHeader : isHeader 120 156 = true := by decide
  let sum : Bytes := [(checksum text / 16777216).toUInt8, (checksum text / 65536).toUInt8,
    (checksum text / 256).toUInt8, (checksum text).toUInt8]
  have isEncoded : encode text = 120 :: 156 :: (blocks text ++ sum) := rfl
  have whole : (Bits.ofBytesLow sum).length % 8 = 0 := by
    rw [Bits.length_ofBytesLow]
    omega
  obtain ⟨count, few, isRead⟩ := readBlocks_blocks text whole
  have isSum : takeBytes? 4 (align (List.replicate count false ++ Bits.ofBytesLow sum)) =
      some (sum, []) := by
    have taken := takeBytes?_ofBytesLow sum []
    rw [List.append_nil] at taken
    rw [align_replicate few whole]
    exact taken
  rw [isEncoded, decode, if_pos isHeader, Bits.ofBytesLow_append]
  dsimp only
  rw [isRead]
  simp only [Option.bind_eq_bind, Option.bind_some]
  rw [isSum]
  simp only [Option.bind_some]
  rw [if_pos (bigEndian_four (checksum_lt text))]
  rfl

end Deflate
end Monochrome
