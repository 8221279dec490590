import Monochrome.Content.Lexeme

/-!
# Searching through text

A search for a keyword passes over a text if it goes on behind it as if the text were not there.
Every lexeme is passed over as a whole: blanks, delimiters, strings and hexadecimal strings by
themselves, names and words if what follows them ends a token.  A text that is put together from
lexemes is passed over piece by piece.  Where a lexeme ends depends on no more than the byte after it.
-/

namespace Monochrome
namespace Bytes

/-- What holds of the numbers below 256 holds of every byte. -/
theorem forall_of_fin {property : UInt8 → Prop}
    (holds : ∀ number : Fin 256, property (UInt8.ofNat number)) (byte : UInt8) :
    property byte := by
  have value := holds ⟨byte.toNat, byte.toNat_lt⟩
  simpa using value

/-- The bytes that open a lexeme of several bytes. -/
def opens (byte : UInt8) : Bool :=
  byte == 40 || byte == 37 || byte == 60 || byte == 47

/-- A regular byte opens nothing. -/
theorem opens_eq_false_of_isRegular :
    ∀ byte : UInt8, isRegular byte = true → opens byte = false :=
  forall_of_fin (by decide +kernel)

end Bytes

namespace Lexeme

/-! ## The first lexeme -/

section FirstLexeme

variable {first : UInt8} {bytes body rest : Bytes}

/-- A parenthesis begins a literal string. -/
theorem split_literalString : split 40 bytes = (literalString, splitString 1 bytes) := by
  simp [split]

/-- A percent sign begins a comment. -/
theorem split_comment : split 37 bytes = (comment, splitWhile isInLine bytes) := by
  simp [split]

/-- A slash begins a name. -/
theorem split_name : split 47 bytes = (name, splitWhile Bytes.isRegular bytes) := by
  simp [split]

/-- A bracket that no other one follows begins a hexadecimal string. -/
theorem split_hexString (isSingle : bytes.head? ≠ some 60) :
    split 60 bytes = (hexString, splitThrough (· == 62) bytes) := by
  rw [split, if_neg (by decide), if_neg (by decide), if_pos rfl]
  · intro more same
    rw [same] at isSingle
    exact isSingle rfl

/-- A regular byte begins a word. -/
theorem split_word (isRegular : Bytes.isRegular first = true) :
    split first bytes = (word, splitWhile Bytes.isRegular bytes) := by
  have opensNothing := Bytes.opens_eq_false_of_isRegular first isRegular
  simp only [Bytes.opens, Bool.or_eq_false_iff, beq_eq_false_iff_ne] at opensNothing
  simp [split, opensNothing, isRegular]

/-- A byte that is not regular and opens nothing is a mark. -/
theorem split_mark (opensNothing : Bytes.opens first = false)
    (notRegular : Bytes.isRegular first = false) : split first bytes = (mark, [], bytes) := by
  simp only [Bytes.opens, Bool.or_eq_false_iff, beq_eq_false_iff_ne] at opensNothing
  simp [split, opensNothing, notRegular]

/-- The bytes before a mismatch are those that satisfy the condition, if the next one does not. -/
theorem splitWhile_eq_iff {keep : UInt8 → Bool} :
    splitWhile keep bytes = (body, rest) ↔
      bytes = body ++ rest ∧ (∀ byte ∈ body, keep byte = true) ∧
        ∀ byte ∈ rest.head?, keep byte = false := by
  constructor
  · intro parts
    obtain ⟨rfl, rfl⟩ := Prod.mk.inj parts
    refine ⟨List.takeWhile_append_dropWhile.symm, ?_, fun byte isNext => ?_⟩
    · exact fun byte inBody => List.all_eq_true.1 List.all_takeWhile byte inBody
    · have stops := List.head?_dropWhile_not keep bytes
      rw [Option.mem_def.1 isNext] at stops
      simpa using stops
  · rintro ⟨rfl, kept, stops⟩
    have ends : rest.takeWhile keep = [] ∧ rest.dropWhile keep = rest := by
      cases rest with
      | nil => simp
      | cons byte more => simp [stops byte rfl]
    rw [splitWhile, List.takeWhile_append_of_pos kept, List.dropWhile_append_of_pos kept, ends.1,
      ends.2, List.append_nil]

/-- A run of regular bytes ends before what ends a token. -/
theorem splitWhile_isRegular
    (regular : ∀ byte ∈ body, Bytes.isRegular byte = true)
    (ends : endsToken rest = true) :
    splitWhile Bytes.isRegular (body ++ rest) = (body, rest) := by
  refine splitWhile_eq_iff.2 ⟨rfl, regular, fun byte isNext => ?_⟩
  obtain ⟨more, rfl⟩ := List.head?_eq_some_iff.1 isNext
  simpa [endsToken] using ends

end FirstLexeme

/-! ## Passing over lexemes -/

/-- A search for a keyword that starts with a text finds what a search behind the text finds. -/
def PassesOver (keyword text rest : Bytes) : Prop :=
  findWord keyword (text ++ rest) =
    (findWord keyword rest).map fun (before, after) => (text ++ before, after)

variable {keyword text rest : Bytes}

@[simp] theorem passesOver_nil : PassesOver keyword [] rest := by
  simp [PassesOver]

/-- Texts that are passed over one after the other are passed over together. -/
theorem PassesOver.append {first second : Bytes}
    (passesFirst : PassesOver keyword first (second ++ rest))
    (passesSecond : PassesOver keyword second rest) :
    PassesOver keyword (first ++ second) rest := by
  unfold PassesOver at *
  rw [List.append_assoc, passesFirst, passesSecond, Option.map_map]
  congr 1
  funext found
  simp

/-- A search in a nonempty text looks at its first lexeme. -/
theorem findWord_cons (first : UInt8) :
    findWord keyword (first :: rest) =
      if (split first rest).1 = word ∧ first :: (split first rest).2.1 = keyword then
        some ([], (split first rest).2.2)
      else
        (findWord keyword (split first rest).2.2).map fun (before, after) =>
          (first :: ((split first rest).2.1 ++ before), after) := by
  rw [findWord]
  simp

/-- A lexeme that is no word, or a word that is not the keyword, is passed over. -/
theorem passesOver_of_split (kind : Lexeme) {first : UInt8}
    (parts : split first (text ++ rest) = (kind, text, rest))
    (other : ¬(kind = word ∧ first :: text = keyword)) :
    PassesOver keyword (first :: text) rest := by
  unfold PassesOver
  rw [List.cons_append, findWord_cons, parts]
  simp only [other, if_false, List.cons_append]

/-- A blank, or a delimiter that opens nothing, is passed over. -/
theorem passesOver_mark {first : UInt8}
    (opensNothing : Bytes.opens first = false)
    (notRegular : Bytes.isRegular first = false) :
    PassesOver keyword [first] rest :=
  passesOver_of_split mark (split_mark opensNothing notRegular) (by simp)

/-- Two opening angle brackets are passed over. -/
theorem passesOver_doubleBracket : PassesOver keyword [60, 60] rest :=
  passesOver_of_split mark (by simp [split]) (by simp)

/-- A name is passed over. -/
theorem passesOver_name
    (regular : ∀ byte ∈ text, Bytes.isRegular byte = true)
    (ends : endsToken rest = true) :
    PassesOver keyword (47 :: text) rest := by
  refine passesOver_of_split name ?_ (by simp)
  rw [split_name, splitWhile_isRegular regular ends]

/-- A word other than the keyword is passed over. -/
theorem passesOver_word
    (nonempty : text ≠ [])
    (regular : ∀ byte ∈ text, Bytes.isRegular byte = true)
    (other : text ≠ keyword)
    (ends : endsToken rest = true) :
    PassesOver keyword text rest := by
  cases text with
  | nil => exact absurd rfl nonempty
  | cons first more =>
      obtain ⟨firstRegular, moreRegular⟩ := List.forall_mem_cons.1 regular
      refine passesOver_of_split word ?_ (by simpa using other)
      rw [split_word firstRegular, splitWhile_isRegular moreRegular ends]

/-- The keyword itself is found at the start of a text. -/
theorem findWord_keyword
    (nonempty : keyword ≠ [])
    (regular : ∀ byte ∈ keyword, Bytes.isRegular byte = true)
    (ends : endsToken rest = true) :
    findWord keyword (keyword ++ rest) = some ([], rest) := by
  cases keyword with
  | nil => exact absurd rfl nonempty
  | cons first more =>
      obtain ⟨firstRegular, moreRegular⟩ := List.forall_mem_cons.1 regular
      rw [List.cons_append, findWord_cons, split_word firstRegular,
        splitWhile_isRegular moreRegular ends, if_pos ⟨rfl, rfl⟩]

/-- Bytes up to the first that satisfies a condition. -/
theorem splitThrough_append_cons (stop : UInt8 → Bool) {last : UInt8} (rest : Bytes)
    (before : ∀ byte ∈ text, stop byte = false)
    (atLast : stop last = true) :
    splitThrough stop (text ++ last :: rest) = (text ++ [last], rest) := by
  induction text with
  | nil => simp [splitThrough, atLast]
  | cons byte more inductionHypothesis =>
      have goesOn : stop byte = false := before byte (by simp)
      have later := inductionHypothesis fun other inMore => before other (by simp [inMore])
      simp [splitThrough, goesOn, later]

/-- A hexadecimal string is passed over. -/
theorem passesOver_hexString
    (inside : ∀ byte ∈ text, byte ≠ 60 ∧ byte ≠ 62) :
    PassesOver keyword (60 :: (text ++ [62])) rest := by
  refine passesOver_of_split hexString ?_ (by simp)
  have notClosed : ∀ byte ∈ text, (byte == 62) = false :=
    fun byte inText => by simpa using (inside byte inText).2
  have closes := splitThrough_append_cons (· == 62) rest notClosed (beq_self_eq_true 62)
  have isSingle : (text ++ 62 :: rest).head? ≠ some 60 := by
    cases text with
    | nil => simp
    | cons byte more => simpa using (inside byte (by simp)).1
  rw [List.append_assoc, List.singleton_append, split_hexString isSingle, closes]

/-- A literal string is passed over if its bytes balance its opening parenthesis. -/
theorem passesOver_literalString
    (balanced : splitString 1 (text ++ rest) = (text, rest)) :
    PassesOver keyword (40 :: text) rest := by
  refine passesOver_of_split literalString ?_ (by simp)
  rw [split_literalString, balanced]

/-! ## What follows a lexeme -/

/-- A byte of a literal string that is no backslash closes it, or goes before the rest of it. -/
theorem splitString_cons {depth : Nat} {byte : UInt8} (noEscape : byte ≠ 92) :
    splitString depth (byte :: rest) =
      if byte = 41 && depth ≤ 1 then ([byte], rest)
      else
        let parts := splitString
          (if byte = 40 then depth + 1 else if byte = 41 then depth - 1 else depth) rest
        (byte :: parts.1, parts.2) := by
  cases rest <;> simp [splitString, noEscape]

/-- A literal string that is closed does not depend on what follows it. -/
theorem splitString_replace (depth : Nat) (bytes other : Bytes)
    (closed : (splitString depth bytes).2 ≠ []) :
    splitString depth ((splitString depth bytes).1 ++ other) =
      ((splitString depth bytes).1, other) := by
  fun_induction splitString depth bytes with
  | case1 => simp at closed
  | case2 => simp at closed
  | case3 depth hidden rest string after parts inductionHypothesis =>
      simp only [parts] at inductionHypothesis
      simp [splitString, inductionHypothesis closed]
  | case4 depth byte rest noEscape closes => simp [splitString_cons, noEscape, closes]
  | case5 depth byte rest noEscape goesOn next string after parts inductionHypothesis =>
      simp only [parts] at inductionHypothesis
      rw [List.cons_append, splitString_cons noEscape, if_neg goesOn, inductionHypothesis closed]

/-- Bytes through a match do not depend on what follows them. -/
theorem splitThrough_replace (stop : UInt8 → Bool) (bytes other : Bytes)
    (stops : (splitThrough stop bytes).2 ≠ []) :
    splitThrough stop ((splitThrough stop bytes).1 ++ other) =
      ((splitThrough stop bytes).1, other) := by
  fun_induction splitThrough stop bytes with
  | case1 => simp at stops
  | case2 byte rest atStop => simp [splitThrough, atStop]
  | case3 byte rest goesOn before after parts inductionHypothesis =>
      simp only [parts] at inductionHypothesis
      simp [splitThrough, goesOn, inductionHypothesis stops]

/-- Bytes before a mismatch do not depend on what follows the mismatch. -/
theorem splitWhile_replace (keep : UInt8 → Bool) {bytes other : Bytes}
    (same : other.head? = (splitWhile keep bytes).2.head?) :
    splitWhile keep ((splitWhile keep bytes).1 ++ other) = ((splitWhile keep bytes).1, other) := by
  obtain ⟨-, kept, stops⟩ := splitWhile_eq_iff.1 (rfl : splitWhile keep bytes = (_, _))
  exact splitWhile_eq_iff.2 ⟨rfl, kept, same ▸ stops⟩

/-- A lexeme that ends before the end depends only on the byte that follows it. -/
theorem split_replace (first : UInt8) {bytes other : Bytes}
    (ends : (split first bytes).2.2 ≠ []) (same : other.head? = (split first bytes).2.2.head?) :
    split first ((split first bytes).2.1 ++ other) =
      ((split first bytes).1, (split first bytes).2.1, other) := by
  revert ends same
  fun_cases split first bytes
  · rename_i isString
    intro closed _
    simp only [split, if_pos isString, splitString_replace 1 bytes other closed]
  · rename_i noString isComment
    intro _ same
    simp only [split, noString, if_false, if_pos isComment, splitWhile_replace isInLine same]
  · rename_i noString noComment isAngle rest
    intro _ _
    simp only [split, noString, noComment, if_false, if_pos isAngle, List.singleton_append]
  · rename_i noString noComment isAngle once
    intro stops _
    have opensOnce : ∀ more, (splitThrough (· == 62) bytes).1 ++ other ≠ 60 :: more := by
      intro more isOpening
      cases bytes with
      | nil => exact stops rfl
      | cons byte bytes =>
          have isFirst : byte = 60 := by
            rw [splitThrough] at isOpening
            split at isOpening <;> exact (List.cons.inj isOpening).1
          exact once bytes (by rw [isFirst])
    rw [split, if_neg noString, if_neg noComment, if_pos isAngle,
      splitThrough_replace (· == 62) bytes other stops]
    exact opensOnce
  · rename_i noString noComment noAngle isName
    intro _ same
    simp only [split, noString, noComment, noAngle, if_false, if_pos isName,
      splitWhile_replace Bytes.isRegular same]
  · rename_i noString noComment noAngle noName isRegular
    intro _ same
    simp only [split, noString, noComment, noAngle, noName, if_false, if_pos isRegular,
      splitWhile_replace Bytes.isRegular same]
  · rename_i noString noComment noAngle noName notRegular
    intro _ _
    simp only [split, noString, noComment, noAngle, noName, if_false, if_neg notRegular,
      List.nil_append]

/-- A keyword that is found before a byte is found there whatever follows that byte. -/
theorem findWord_replace {content before after other : Bytes} (nonempty : keyword ≠ [])
    (found : findWord keyword content = some (before, after)) (goesOn : after ≠ [])
    (same : other.head? = after.head?) :
    findWord keyword (before ++ (keyword ++ other)) = some (before, other) := by
  fun_induction findWord keyword content generalizing before with
  | case1 => cases found
  | case2 first rest lexeme =>
      rename_i isKeyword
      obtain ⟨rfl, rfl⟩ := Prod.mk.inj (Option.some.inj found)
      rw [Bool.and_eq_true, decide_eq_true_eq, decide_eq_true_eq] at isKeyword
      rw [List.nil_append, ← isKeyword.2, List.cons_append, findWord_cons,
        split_replace first goesOn same, if_pos ⟨isKeyword.1, rfl⟩]
  | case3 first rest lexeme notWord =>
      rename_i inductionHypothesis
      obtain ⟨⟨text, last⟩, later, isFound⟩ := Option.map_eq_some_iff.1 found
      obtain ⟨rfl, rfl⟩ := Prod.mk.inj isFound
      rw [Bool.and_eq_true, decide_eq_true_eq, decide_eq_true_eq] at notWord
      have behind : (split first rest).2.2 = text ++ (keyword ++ last) := by
        rw [← List.append_assoc, append_of_findWord later]
      have parts : split first ((split first rest).2.1 ++ (text ++ (keyword ++ other))) =
          ((split first rest).1, (split first rest).2.1, text ++ (keyword ++ other)) :=
        split_replace first (by simp [behind, nonempty]) (by simp [behind, List.head?_append, same])
      rw [List.cons_append, findWord_cons, List.append_assoc, parts, if_neg notWord,
        inductionHypothesis later, Option.map_some]

end Lexeme
end Monochrome
