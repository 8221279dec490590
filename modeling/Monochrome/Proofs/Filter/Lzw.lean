import Monochrome.Proofs.Filter.Bits
import Monochrome.Filter.Lzw

/-!
# LZW data stands for its bytes

The reader defines a phrase one code later than the writer, for it needs the first byte of the next
phrase.  So between two codes the reader knows every phrase of the writer but the newest, and of
the newest one all but its last byte.  That byte is the first one of the phrase which the writer is
at, which is how the reader can follow even when that phrase is the newest.
-/

namespace Monochrome
namespace Lzw

variable {early : Bool} {writer : Writer} {reader : Reader} {phrases older : List Phrase}
  {phrase : Phrase} {code fuel : Nat} {byte : UInt8} {output : List Bytes} {rest : Bits}

/-! ## What codes stand for -/

/-- The bytes that a code stands for. -/
def spell : List Phrase → Nat → Bytes
  | [], code => [code.toUInt8]
  | phrase :: older, code =>
    if code = firstPhrase + older.length then spell older phrase.parent ++ [phrase.added]
    else spell older code

/-- The bytes that the phrases stand for, in the order of their codes. -/
def spellings : List Phrase → List Bytes
  | [] => []
  | phrase :: older => spellings older ++ [spell older phrase.parent ++ [phrase.added]]

/-- A code that stands for a byte or for a phrase. -/
def Valid (phrases : List Phrase) (code : Nat) : Prop :=
  code < clearCode ∨ firstPhrase ≤ code ∧ code < firstPhrase + phrases.length

/-- Every phrase extends a byte or an older phrase. -/
def Grown : List Phrase → Prop
  | [] => True
  | phrase :: older => Valid older phrase.parent ∧ Grown older

theorem Valid.lt (isValid : Valid phrases code) : code < firstPhrase + phrases.length := by
  simp only [Valid, clearCode, firstPhrase] at isValid ⊢
  omega

theorem Valid.cons (isValid : Valid older code) : Valid (phrase :: older) code :=
  isValid.imp id fun isPhrase => ⟨isPhrase.1, Nat.lt_succ_of_lt isPhrase.2⟩

theorem Valid.ne_clear (isValid : Valid phrases code) : code ≠ clearCode := by
  simp only [Valid, clearCode, firstPhrase] at isValid ⊢
  omega

theorem Valid.ne_end (isValid : Valid phrases code) : code ≠ endCode := by
  simp only [Valid, clearCode, firstPhrase, endCode] at isValid ⊢
  omega

theorem valid_byte (byte : UInt8) : Valid phrases byte.toNat :=
  .inl byte.toNat_lt

theorem spell_newest :
    spell (phrase :: older) (firstPhrase + older.length) =
      spell older phrase.parent ++ [phrase.added] :=
  if_pos rfl

theorem spell_older (isOlder : code < firstPhrase + older.length) :
    spell (phrase :: older) code = spell older code :=
  if_neg (Nat.ne_of_lt isOlder)

theorem spell_byte (isByte : code < clearCode) : spell phrases code = [code.toUInt8] := by
  induction phrases with
  | nil => rfl
  | cons phrase older inductionHypothesis =>
      rw [spell_older (by simp only [clearCode, firstPhrase] at isByte ⊢; omega), inductionHypothesis]

@[simp] theorem length_spellings (phrases : List Phrase) :
    (spellings phrases).length = phrases.length := by
  induction phrases with
  | nil => rfl
  | cons phrase older inductionHypothesis => simp [spellings, inductionHypothesis]

/-- A phrase is found at the place of its code. -/
theorem getElem?_spellings (isValid : Valid phrases code) (isPhrase : firstPhrase ≤ code) :
    (spellings phrases)[code - firstPhrase]? = some (spell phrases code) := by
  induction phrases with
  | nil =>
      simp only [Valid, clearCode, firstPhrase, List.length_nil] at isValid isPhrase
      omega
  | cons phrase older inductionHypothesis =>
      by_cases newest : code = firstPhrase + older.length
      · rw [newest, spell_newest, spellings, Nat.add_sub_cancel_left,
          List.getElem?_append_right (by simp)]
        simp
      · have isOlder : code < firstPhrase + older.length := by
          have bound := isValid.lt
          rw [List.length_cons] at bound
          omega
        rw [spell_older isOlder, spellings, List.getElem?_append_left (by simp; omega),
          inductionHypothesis (.inr ⟨isPhrase, isOlder⟩)]

theorem spell_ne_nil (phrases : List Phrase) (code : Nat) : spell phrases code ≠ [] := by
  fun_induction spell phrases code with
  | case1 => exact List.cons_ne_nil _ _
  | case2 => simp
  | case3 _ _ _ _ inductionHypothesis => exact inductionHypothesis

/-! ## The phrases of the writer -/

/-- The code of an extension stands for what the extended code stands for and the byte. -/
theorem spell_extension {longer : Nat} (grown : Grown phrases)
    (isLonger : extension? code byte phrases = some longer) :
    Valid phrases code ∧ Valid phrases longer ∧
      spell phrases longer = spell phrases code ++ [byte] := by
  induction phrases with
  | nil => cases isLonger
  | cons phrase older inductionHypothesis =>
      rw [extension?] at isLonger
      split at isLonger
      next extends? =>
        simp only [Bool.and_eq_true, decide_eq_true_eq] at extends?
        obtain ⟨⟨isParent, isAdded⟩, -⟩ := extends?
        cases isLonger
        have isValid : Valid older code := isParent ▸ grown.1
        refine ⟨isValid.cons, .inr ⟨Nat.le_add_right _ _, ?_⟩, ?_⟩
        · rw [List.length_cons]
          omega
        · rw [spell_newest, spell_older isValid.lt, isParent, isAdded]
      next =>
        obtain ⟨isValid, validLonger, spelled⟩ := inductionHypothesis grown.2 isLonger
        refine ⟨isValid.cons, validLonger.cons, ?_⟩
        rw [spell_older isValid.lt, spell_older validLonger.lt, spelled]

/-! ## The reader behind the writer -/

/-- What the reader lacks of the writer's phrases. -/
def Lags (writer : Writer) (reader : Reader) (code : Nat) : Prop :=
  match writer.phrases with
  | [] => writer.width = 9 ∧ reader.last = [] ∧ reader.phrases = #[]
  | phrase :: older =>
    reader.last = spell older phrase.parent ∧ reader.phrases = (spellings older).toArray ∧
      (spell writer.phrases code).take 1 = [phrase.added]

/-- The reader knows what it takes to read the code that the writer is at. -/
structure Follows (writer : Writer) (reader : Reader) (code : Nat) : Prop where
  width : reader.width = writer.width
  wide : 9 ≤ writer.width
  room : firstPhrase + writer.phrases.length ≤ 2 ^ writer.width
  limited : firstPhrase + writer.phrases.length ≤ codeLimit
  grown : Grown writer.phrases
  valid : Valid writer.phrases code
  lags : Lags writer reader code

/-- At the start there is nothing to lack. -/
theorem follows_initial (byte : UInt8) : Follows Writer.initial Reader.initial byte.toNat where
  width := rfl
  wide := Nat.le_refl 9
  room := by decide
  limited := by decide
  grown := trivial
  valid := valid_byte byte
  lags := ⟨rfl, rfl, rfl⟩

/-- The reader stays behind while the phrase grows. -/
theorem Follows.extend {longer : Nat} (follows : Follows writer reader code)
    (isLonger : extension? code byte writer.phrases = some longer) :
    Follows writer reader longer where
  width := follows.width
  wide := follows.wide
  room := follows.room
  limited := follows.limited
  grown := follows.grown
  valid := (spell_extension follows.grown isLonger).2.1
  lags := by
    have lags := follows.lags
    have spelled := (spell_extension follows.grown isLonger).2.2
    have start := spell_ne_nil writer.phrases code
    obtain ⟨width, phrases⟩ := writer
    cases phrases with
    | nil => exact lags
    | cons phrase older =>
        refine ⟨lags.1, lags.2.1, ?_⟩
        rw [spelled, List.take_append_of_le_length (List.length_pos_iff.mpr start), lags.2.2]

/-- The reader finds the phrase of a code that it knows. -/
theorem phrase?_spellings (isValid : Valid phrases code) :
    phrase? (spellings phrases).toArray code = some (spell phrases code) := by
  rw [phrase?]
  split
  next isByte => rw [spell_byte isByte]
  next noByte =>
    have isPhrase : firstPhrase ≤ code := by
      rcases isValid with isByte | isPhrase
      · exact absurd isByte noByte
      · exact isPhrase.1
    rw [if_pos isPhrase, List.getElem?_toArray, getElem?_spellings isValid isPhrase]

/-- The reader reads the code of the newest phrase from what it knows of it. -/
theorem step?_newest {first : UInt8} {more : Bytes}
    (isLast : spell older phrase.parent = first :: more)
    (isFirst : (spell (phrase :: older) code).take 1 = [phrase.added])
    (isValid : Valid (phrase :: older) code) (limited : firstPhrase + older.length < codeLimit) :
    (if code = firstPhrase + older.length && firstPhrase + older.length < codeLimit then
        some (spell older phrase.parent ++ [first])
      else phrase? (spellings older).toArray code) = some (spell (phrase :: older) code) := by
  split
  next newest =>
    have isNewest : code = firstPhrase + older.length := by
      simpa [limited] using newest
    rw [isNewest, spell_newest, isLast] at isFirst ⊢
    have isAdded : first = phrase.added := by simpa using isFirst
    rw [isAdded]
  next notNewest =>
    have isOlder : code < firstPhrase + older.length := by
      have bound := isValid.lt
      have other : code ≠ firstPhrase + older.length := by simpa [limited] using notNewest
      rw [List.length_cons] at bound
      omega
    have validOlder : Valid older code := isValid.imp id fun isPhrase => ⟨isPhrase.1, isOlder⟩
    rw [phrase?_spellings validOlder, spell_older isOlder]

/-- The reader after a code knows all phrases of the writer. -/
theorem Follows.step (follows : Follows writer reader code) :
    reader.step? early code = some (spell writer.phrases code,
      ⟨nextWidth early writer.width (firstPhrase + writer.phrases.length),
        (spellings writer.phrases).toArray, spell writer.phrases code⟩) := by
  obtain ⟨sameWidth, wide, room, limited, grown, valid, lags⟩ := follows
  obtain ⟨width, phrases⟩ := writer
  obtain ⟨readerWidth, readerPhrases, last⟩ := reader
  cases phrases with
  | nil =>
      obtain ⟨isNine, isLast, isPhrases⟩ := lags
      dsimp only at sameWidth isNine isLast isPhrases
      subst isLast isPhrases isNine sameWidth
      have isByte : code < clearCode := by
        have bound := valid.lt
        have notClear := valid.ne_clear
        have notEnd := valid.ne_end
        simp only [clearCode, endCode, firstPhrase, List.length_nil] at *
        omega
      have stays : nextWidth early 9 (firstPhrase + 0) = 9 := by cases early <;> rfl
      rw [Reader.step?]
      dsimp only
      rw [if_pos isByte, spell_byte isByte, List.length_nil, stays]
      rfl
  | cons phrase older =>
      obtain ⟨isLast, isPhrases, isFirst⟩ := lags
      dsimp only at sameWidth isLast isPhrases limited room
      subst isLast isPhrases sameWidth
      have below : firstPhrase + older.length < codeLimit := by
        rw [List.length_cons] at limited
        omega
      obtain ⟨first, more, isStart⟩ := List.exists_cons_of_ne_nil (spell_ne_nil older phrase.parent)
      have found := step?_newest isStart isFirst valid below
      rw [Reader.step?, isStart]
      dsimp only
      rw [List.size_toArray, length_spellings, ← isStart, found]
      dsimp only
      rw [if_pos below, isFirst, List.push_toArray, spellings, List.length_cons, Nat.add_assoc]

/-- The next code is read at a width that it fits. -/
theorem room_nextWidth {width next : Nat} (room : next ≤ 2 ^ width)
    (limited : next < codeLimit) : next < 2 ^ nextWidth early width next := by
  rw [nextWidth]
  split
  next =>
    rw [Nat.pow_succ]
    have some := Nat.two_pow_pos width
    omega
  next narrow =>
    by_cases isWidest : width < 12
    · simp only [isWidest, decide_true, Bool.true_and, decide_eq_true_eq] at narrow
      omega
    · have widest : 2 ^ 12 ≤ 2 ^ width := Nat.pow_le_pow_right Nat.two_pos (Nat.not_lt.mp isWidest)
      exact Nat.lt_of_lt_of_le limited widest

theorem le_nextWidth (early : Bool) (width next : Nat) : width ≤ nextWidth early width next := by
  rw [nextWidth]
  split <;> omega

/-- The reader follows the writer to the next code. -/
theorem Follows.next (follows : Follows writer reader code)
    (more : firstPhrase + writer.phrases.length < codeLimit) (byte : UInt8) :
    Follows
      ⟨nextWidth early writer.width (firstPhrase + writer.phrases.length),
        .extending writer.phrases code byte :: writer.phrases⟩
      ⟨nextWidth early writer.width (firstPhrase + writer.phrases.length),
        (spellings writer.phrases).toArray, spell writer.phrases code⟩ byte.toNat where
  width := rfl
  wide := Nat.le_trans follows.wide (le_nextWidth _ _ _)
  room := room_nextWidth follows.room more
  limited := more
  grown := ⟨follows.valid, follows.grown⟩
  valid := valid_byte byte
  lags := ⟨rfl, rfl, by rw [spell_byte byte.toNat_lt]; simp [Phrase.extending]⟩

/-! ## Codes among bits -/

/-- A code of a width is read, and takes more than a byte. -/
theorem decodeFrom_code {width : Nat} (isWidth : reader.width = width) (fits : code < 2 ^ width) :
    decodeFrom early (fuel + 1) reader output (Bits.highFirst width code ++ rest) =
      if code = endCode then some output.reverse.flatten
      else if code = clearCode then decodeFrom early fuel Reader.initial output rest
      else
        match reader.step? early code with
        | none => none
        | some (phrase, next) => decodeFrom early fuel next (phrase :: output) rest := by
  cases isStep : reader.step? early code <;>
    simp only [decodeFrom, isWidth, Bits.takeHigh?_highFirst fits, isStep]

/-- The code that the writer is at is read, and the reader knows what the writer knows. -/
theorem Follows.decodeFrom_code (follows : Follows writer reader code) :
    decodeFrom early (fuel + 1) reader output (Bits.highFirst writer.width code ++ rest) =
      decodeFrom early fuel
        ⟨nextWidth early writer.width (firstPhrase + writer.phrases.length),
          (spellings writer.phrases).toArray, spell writer.phrases code⟩
        (spell writer.phrases code :: output) rest := by
  have fits : code < 2 ^ writer.width := Nat.lt_of_lt_of_le follows.valid.lt follows.room
  rw [Lzw.decodeFrom_code follows.width fits, if_neg follows.valid.ne_end,
    if_neg follows.valid.ne_clear, follows.step]

/-- A control code fits any width. -/
theorem control_lt {control : Nat} (isControl : control < 2 ^ 9) (wide : 9 ≤ writer.width)
    (next : Nat) : control < 2 ^ nextWidth early writer.width next :=
  Nat.lt_of_lt_of_le isControl
    (Nat.pow_le_pow_right Nat.two_pos (Nat.le_trans wide (le_nextWidth _ _ _)))

/-- What the writer writes is read as the phrase that it is at and the bytes that follow. -/
theorem decodeFrom_encodeFrom {bytes : Bytes} (follows : Follows writer reader code)
    (enough : (encodeFrom early writer code bytes ++ rest).length < 8 * fuel) :
    decodeFrom early fuel reader output (encodeFrom early writer code bytes ++ rest) =
      some (output.reverse.flatten ++ spell writer.phrases code ++ bytes) := by
  induction bytes generalizing writer code reader output fuel with
  | nil =>
      rw [encodeFrom] at enough ⊢
      simp only [List.length_append, Bits.length_highFirst, List.append_assoc] at enough ⊢
      have wide := follows.wide
      have widens := le_nextWidth early writer.width (firstPhrase + writer.phrases.length)
      obtain ⟨fuel, rfl⟩ : ∃ less, fuel = less + 1 + 1 := ⟨fuel - 2, by omega⟩
      rw [follows.decodeFrom_code, Lzw.decodeFrom_code rfl (control_lt (by decide) wide _),
        if_pos rfl]
      simp
  | cons byte bytes inductionHypothesis =>
      rw [encodeFrom] at enough ⊢
      split
      next longer isLonger =>
        rw [isLonger] at enough
        rw [inductionHypothesis (follows.extend isLonger) enough,
          (spell_extension follows.grown isLonger).2.2]
        simp
      next isNone =>
        rw [isNone] at enough
        dsimp only at enough ⊢
        have wide := follows.wide
        have widens := le_nextWidth early writer.width (firstPhrase + writer.phrases.length)
        split
        next full =>
          rw [if_pos full] at enough
          simp only [List.length_append, Bits.length_highFirst, List.append_assoc] at enough ⊢
          obtain ⟨fuel, rfl⟩ : ∃ less, fuel = less + 1 + 1 := ⟨fuel - 2, by omega⟩
          rw [follows.decodeFrom_code, Lzw.decodeFrom_code rfl (control_lt (by decide) wide _),
            if_neg (by decide), if_pos rfl, inductionHypothesis (follows_initial byte)
              (by rw [List.length_append]; omega)]
          simp [spell, Writer.initial]
        next more =>
          rw [if_neg more] at enough
          simp only [List.length_append, Bits.length_highFirst, List.append_assoc] at enough ⊢
          obtain ⟨fuel, rfl⟩ : ∃ less, fuel = less + 1 := ⟨fuel - 1, by omega⟩
          rw [follows.decodeFrom_code, inductionHypothesis (follows.next (Nat.not_le.mp more) byte)
              (by rw [List.length_append]; omega), spell_byte byte.toNat_lt]
          simp

/-- Codes behind the one that empties the table are read as they are at the start. -/
theorem decode_toBytesHigh {codes : Bits} {bytes : Bytes}
    (isRead : ∀ (fuel : Nat) (rest : Bits), (codes ++ rest).length < 8 * fuel →
      decodeFrom early fuel Reader.initial [] (codes ++ rest) = some bytes) :
    decode early (Bits.toBytesHigh (Bits.highFirst 9 clearCode ++ codes)) = some bytes := by
  obtain ⟨count, packed⟩ := Bits.ofBytesHigh_toBytesHigh (Bits.highFirst 9 clearCode ++ codes)
  have total := congrArg List.length packed
  simp only [Bits.length_ofBytesHigh, List.length_append, Bits.length_highFirst] at total
  have isWidth : Reader.initial.width = 9 := rfl
  rw [decode, packed, List.append_assoc, decodeFrom_code isWidth (by decide), if_neg (by decide),
    if_pos rfl]
  refine isRead _ _ ?_
  rw [List.length_append]
  omega

/-- LZW data is read as the bytes that it was written from. -/
theorem decode_encode (early : Bool) (bytes : Bytes) :
    decode early (encode early bytes) = some bytes := by
  rw [encode.eq_def]
  refine decode_toBytesHigh fun fuel rest enough => ?_
  cases bytes with
  | nil =>
      simp only [List.length_append, Bits.length_highFirst] at enough
      obtain ⟨fuel, rfl⟩ : ∃ less, fuel = less + 1 := ⟨fuel - 1, by omega⟩
      exact (decodeFrom_code rfl (by decide)).trans (if_pos rfl)
  | cons byte bytes =>
      refine (decodeFrom_encodeFrom (follows_initial byte) enough).trans ?_
      simp [spell, Writer.initial]

end Lzw
end Monochrome
