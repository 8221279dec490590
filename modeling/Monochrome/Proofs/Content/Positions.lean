import Monochrome.Content.InlineImage
import Monochrome.Proofs.Content.Printing

/-!
# Scanning content by positions

Content is read by taking lexemes off what is left of it.  The same lexemes are found by scanners that
keep the content and count positions in it.  Here every byte and every slice that such a scanner takes is
checked to be inside of the content, and every loop has a number of steps in which it must end.  A scanner
finds what the recursion on the rest of the content finds, and one step more than there are bytes left is
enough for it: so it takes nothing from outside, and it ends.
-/

namespace Monochrome
namespace Positions

/-- Why a scanner stops without a result. -/
inductive Stop
  /-- A byte or a slice is not inside of the content. -/
  | outside
  /-- A parenthesis closes, and none is open. -/
  | unopened
  /-- A loop has not ended within its steps. -/
  | unfinished
deriving DecidableEq, Repr

/-! ## Scanners -/

section Scanners

variable (content : Bytes)

/-- The byte at a position. -/
def byteAt (position : Nat) : Except Stop UInt8 :=
  content[position]?.elim (.error .outside) .ok

/-- The bytes from one position to another, if both are inside of the content and in order. -/
def slice? (start stop : Nat) : Option Bytes :=
  if start ≤ stop ∧ stop ≤ content.length then some ((content.drop start).take (stop - start))
  else none

/-- The bytes from one position to another. -/
def slice (start stop : Nat) : Except Stop Bytes :=
  (slice? content start stop).elim (.error .outside) .ok

/-- The position behind bytes that satisfy a condition. -/
def endWhile (keep : UInt8 → Bool) : Nat → Nat → Except Stop Nat
  | 0, _ => .error .unfinished
  | steps + 1, position =>
    if position < content.length then do
      if keep (← byteAt content position) then endWhile keep steps (position + 1)
      else return position
    else return position

/-- The number of open parentheses after one is closed.  Unless it is checked, the number falls below
zero where none is open. -/
def close (checked : Bool) (depth : Int) : Except Stop Int :=
  if checked && depth = 0 then .error .unopened else .ok (depth - 1)

/-- The position behind a literal string, with the given number of parentheses open before it. -/
def skipString (checked : Bool) : Nat → Nat → Int → Except Stop Nat
  | 0, _, _ => .error .unfinished
  | steps + 1, position, depth =>
    if position < content.length then do
      let byte ← byteAt content position
      if byte = 92 then skipString checked steps (position + 2) depth
      else if byte = 40 then skipString checked steps (position + 1) (depth + 1)
      else if byte = 41 then do
        let depth ← close checked depth
        if depth = 0 then return position + 1
        else skipString checked steps (position + 1) depth
      else skipString checked steps (position + 1) depth
    else return content.length

/-- The position of the first word that equals a keyword.  A hexadecimal string that is never closed is
left at the position after the end. -/
def findKeyword (keyword : Bytes) : Nat → Nat → Except Stop (Option Nat)
  | 0, _ => .error .unfinished
  | steps + 1, position =>
    if position < content.length then do
      let byte ← byteAt content position
      if byte = 40 then do
        let next ← skipString content true (content.length + 1) position 0
        findKeyword keyword steps next
      else if byte = 37 then do
        let next ← endWhile content Lexeme.isInLine (content.length + 1) position
        findKeyword keyword steps next
      else if byte = 60 then
        if content[position + 1]? = some 60 then findKeyword keyword steps (position + 2)
        else do
          let next ← endWhile content (· != 62) (content.length + 1) position
          findKeyword keyword steps (next + 1)
      else if byte = 47 then do
        let next ← endWhile content Bytes.isRegular (content.length + 1) (position + 1)
        findKeyword keyword steps next
      else if Bytes.isRegular byte then do
        let next ← endWhile content Bytes.isRegular (content.length + 1) position
        if (← slice content position next) = keyword then return some position
        else findKeyword keyword steps next
      else findKeyword keyword steps (position + 1)
    else return none

/-- Whether a token has ended at a position. -/
def endsTokenAt (position : Nat) : Bool :=
  content[position]?.all fun byte => !Bytes.isRegular byte

/-- The position behind an `EI` that only blanks go before and that ends a token. -/
def endAfterBlanks (position : Nat) : Except Stop (Option Nat) := do
  let position ← endWhile content Bytes.isBlank (content.length + 1) position
  if slice? content position (position + 2) = some (Bytes.ascii "EI") ∧
      endsTokenAt content (position + 2) then
    return some (position + 2)
  else return none

/-- The byte before a position. -/
def byteBefore : Nat → Except Stop UInt8
  | 0 => .error .outside
  | position + 1 => byteAt content position

/-- The end of data that begins at a position, before the first `EI` at its start or after a blank, and
the position behind that. -/
def scanForEnd (start : Nat) : Nat → Nat → Except Stop (Option (Nat × Nat))
  | 0, _ => .error .unfinished
  | steps + 1, position =>
    if position + 2 ≤ content.length then do
      if (← slice content position (position + 2)) = Bytes.ascii "EI" ∧
          endsTokenAt content (position + 2) then
        if position = start then return some (position, position + 2)
        else if Bytes.isBlank (← byteBefore content position) then
          return some (position - 1, position + 2)
        else scanForEnd start steps (position + 1)
      else scanForEnd start steps (position + 1)
    else return none

end Scanners

/-! ## Bytes and slices -/

variable {content text rest : Bytes} {position steps : Nat}

/-- The content from a position inside of it begins with the byte there. -/
theorem exists_byteAt (inside : position < content.length) :
    ∃ byte, byteAt content position = .ok byte ∧ content[position]? = some byte ∧
      content.drop position = byte :: content.drop (position + 1) := by
  refine ⟨content[position], ?_, List.getElem?_eq_getElem inside, List.drop_eq_getElem_cons inside⟩
  rw [byteAt, List.getElem?_eq_getElem inside]
  rfl

/-- The content behind a text that stands at a position. -/
theorem drop_add_length (parts : content.drop position = text ++ rest) :
    content.drop (position + text.length) = rest := by
  rw [← List.drop_drop, parts, List.drop_left]

/-- A text that stands at a position is the slice of its length. -/
theorem slice?_of_drop (inside : position ≤ content.length)
    (parts : content.drop position = text ++ rest) :
    slice? content position (position + text.length) = some text := by
  have lengths := congrArg List.length parts
  simp only [List.length_drop, List.length_append] at lengths
  rw [slice?, if_pos (by omega), parts, Nat.add_sub_cancel_left, List.take_left]

/-- A text that stands at a position is taken as a slice. -/
theorem slice_of_drop (inside : position ≤ content.length)
    (parts : content.drop position = text ++ rest) :
    slice content position (position + text.length) = .ok text := by
  rw [slice, slice?_of_drop inside parts]
  rfl

/-- A slice stands at its start, and what follows it at its end. -/
theorem drop_of_slice? {start stop : Nat} (isSlice : slice? content start stop = some text) :
    content.drop start = text ++ content.drop stop := by
  rw [slice?] at isSlice
  split at isSlice
  · rename_i inside
    rw [← Option.some.inj isSlice, show stop = start + (stop - start) by omega, ← List.drop_drop,
      Nat.add_sub_cancel_left, List.take_append_drop]
  · cases isSlice

/-- A slice ends inside of the content. -/
theorem le_length_of_slice? {start stop : Nat} (isSlice : slice? content start stop = some text) :
    stop ≤ content.length := by
  rw [slice?] at isSlice
  split at isSlice
  · rename_i inside
    exact inside.2
  · cases isSlice

/-- Bytes that are left are as many as are behind the position. -/
theorem length_sub_length_drop (inside : position ≤ content.length) :
    content.length - (content.drop position).length = position := by
  rw [List.length_drop]
  omega

/-- The content from a position on is the slice to its end. -/
theorem slice_to_end (inside : position ≤ content.length) :
    slice content position content.length = .ok (content.drop position) := by
  have taken := slice_of_drop inside (List.append_nil (content.drop position)).symm
  rwa [List.length_drop, Nat.add_sub_cancel' inside] at taken

/-! ## Runs of bytes and strings -/

/-- A run of bytes that satisfy a condition is left behind its last byte. -/
theorem endWhile_eq (keep : UInt8 → Bool) (enough : content.length - position < steps) :
    endWhile content keep steps position =
      .ok (position + ((content.drop position).takeWhile keep).length) := by
  induction steps generalizing position with
  | zero => omega
  | succ steps inductionHypothesis =>
      rw [endWhile]
      by_cases inside : position < content.length
      · obtain ⟨byte, isByte, -, suffix⟩ := exists_byteAt inside
        rw [if_pos inside, isByte, suffix, List.takeWhile_cons]
        show (if keep byte then endWhile content keep steps (position + 1) else .ok position) = _
        cases kept : keep byte with
        | true =>
            rw [if_pos rfl, if_pos rfl, inductionHypothesis (by omega), List.length_cons]
            congr 1
            omega
        | false => rfl
      · rw [if_neg inside, List.drop_eq_nil_of_le (Nat.not_lt.1 inside)]
        rfl

/-- A literal string inside of an open parenthesis is left behind the one that closes it, or at the end
of the content. -/
theorem skipString_eq (checked : Bool) {depth : Nat} (isOpen : 1 ≤ depth)
    (enough : content.length - position < steps) :
    skipString content checked steps position depth =
      .ok (min (position + (Lexeme.splitString depth (content.drop position)).1.length)
        content.length) := by
  induction steps generalizing position depth with
  | zero => omega
  | succ steps inductionHypothesis =>
      rw [skipString]
      by_cases inside : position < content.length
      · obtain ⟨byte, isByte, -, suffix⟩ := exists_byteAt inside
        have fewer : content.length - (position + 1) < steps := by omega
        have further {next : Nat} (isOpen : 1 ≤ next) := inductionHypothesis isOpen fewer
        rw [if_pos inside, isByte, suffix]
        show (if byte = 92 then _ else if byte = 40 then _ else if byte = 41 then _ else _) = _
        split
        · rename_i isBackslash
          have fewest : content.length - (position + 2) < steps := by omega
          rw [isBackslash, inductionHypothesis isOpen fewest]
          -- A backslash before the end hides nothing, but is left behind as if it did.
          by_cases goesOn : position + 1 < content.length
          · obtain ⟨hidden, -, -, behind⟩ := exists_byteAt goesOn
            rw [behind, Lexeme.splitString_hidden, List.length_cons, List.length_cons]
            simp only [Nat.add_assoc, Nat.reduceAdd]
            congr 2
            omega
          · rw [List.drop_eq_nil_of_le (by omega), List.drop_eq_nil_of_le (by omega)]
            simp only [Lexeme.splitString, if_true, List.length_nil, List.length_cons]
            congr 1
            omega
        split
        · rename_i isOpening
          rw [isOpening, Lexeme.splitString_open, List.length_cons,
            show (depth : Int) + 1 = (depth + 1 : Nat) by omega, further (by omega)]
          congr 2
          omega
        split
        · rename_i isClosing
          have closed : close checked depth = .ok ((depth - 1 : Nat) : Int) := by
            rw [close, if_neg (by simp; omega)]
            congr 1
            omega
          rw [closed, isClosing]
          show (if ((depth - 1 : Nat) : Int) = 0 then Except.ok (position + 1) else _) = _
          split
          · have single : depth = 1 := by omega
            rw [single, Lexeme.splitString_close, List.length_singleton]
            congr 1
            omega
          · rw [Lexeme.splitString_close_inner (by omega), further (by omega), List.length_cons]
            congr 2
            omega
        · rename_i noBackslash notOpening notClosing
          rw [Lexeme.splitString_other notOpening notClosing noBackslash, further isOpen,
            List.length_cons]
          congr 2
          omega
      · rw [if_neg inside, List.drop_eq_nil_of_le (Nat.not_lt.1 inside)]
        show Except.ok content.length = _
        rw [Lexeme.splitString, List.length_nil]
        congr 1
        omega

/-- A literal string reaches no further than the content. -/
theorem length_splitString_le (inside : position ≤ content.length) (depth : Nat) :
    position + (Lexeme.splitString depth (content.drop position)).1.length ≤ content.length := by
  have lengths := congrArg List.length (Lexeme.splitString_append depth (content.drop position))
  simp only [List.length_append, List.length_drop] at lengths
  omega

/-- A literal string that begins at an open parenthesis is left behind its bytes. -/
theorem skipString_of_open (checked : Bool) (isOpen : content[position]? = some 40)
    (enough : content.length - position < steps) :
    skipString content checked steps position 0 =
      .ok (position + 1 + (Lexeme.splitString 1 (content.drop (position + 1))).1.length) := by
  obtain ⟨inside, -⟩ := List.getElem?_eq_some_iff.1 isOpen
  obtain ⟨byte, isByte, isFirst, -⟩ := exists_byteAt inside
  rw [isOpen, Option.some.injEq] at isFirst
  cases steps with
  | zero => omega
  | succ steps =>
      rw [skipString, if_pos inside, isByte, ← isFirst]
      have fewer : content.length - (position + 1) < steps := by omega
      have within := skipString_eq checked Nat.le.refl fewer
      rwa [Nat.min_eq_left (length_splitString_le inside 1)] at within

/-- Whether a scan of a literal string has ended: inside of the content and not before its start, or, if
the open parentheses are checked, where one closes that is not open. -/
def HasEnded (content : Bytes) (checked : Bool) (position : Nat) (result : Except Stop Nat) : Prop :=
  (∃ stop, result = .ok stop ∧ min position content.length ≤ stop ∧ stop ≤ content.length) ∨
    result = .error .unopened ∧ checked = true

/-- What ends from a later position ends from an earlier one. -/
theorem HasEnded.mono {checked : Bool} {earlier : Nat} {result : Except Stop Nat}
    (hasEnded : HasEnded content checked position result) (isEarlier : earlier ≤ position) :
    HasEnded content checked earlier result := by
  refine hasEnded.imp_left ?_
  rintro ⟨stop, isStop, behind, inside⟩
  exact ⟨stop, isStop, by omega, inside⟩

/-- A scan of a literal string ends wherever it starts, and however many parentheses are open there. -/
theorem hasEnded_skipString (checked : Bool) (depth : Int)
    (enough : content.length - position < steps) :
    HasEnded content checked position (skipString content checked steps position depth) := by
  induction steps generalizing position depth with
  | zero => omega
  | succ steps inductionHypothesis =>
      rw [skipString]
      by_cases inside : position < content.length
      · obtain ⟨byte, isByte, -, -⟩ := exists_byteAt inside
        have further (depth : Int) {next : Nat} (isNext : position < next) :=
          (inductionHypothesis depth (show content.length - next < steps by omega)).mono
            (Nat.le_of_lt isNext)
        rw [if_pos inside, isByte]
        show HasEnded content checked position
          (if byte = 92 then _ else if byte = 40 then _ else if byte = 41 then _ else _)
        split
        · exact further depth (by omega)
        split
        · exact further _ (by omega)
        split
        · rw [close]
          split
          · rename_i isUnopened
            simp only [Bool.and_eq_true] at isUnopened
            exact Or.inr ⟨rfl, isUnopened.1⟩
          · show HasEnded content checked position (if depth - 1 = 0 then .ok (position + 1) else _)
            split
            · exact Or.inl ⟨position + 1, rfl, by omega, inside⟩
            · exact further _ (by omega)
        · exact further depth (by omega)
      · rw [if_neg inside]
        exact Or.inl ⟨content.length, rfl, Nat.min_le_right _ _, Nat.le_refl _⟩

/-! ## Keywords -/

/-- The bytes through the first match are those before it, and the match if there is one. -/
theorem length_splitThrough (stop : UInt8 → Bool) (bytes : Bytes) :
    (Lexeme.splitThrough stop bytes).1.length =
      min ((bytes.takeWhile fun byte => !stop byte).length + 1) bytes.length := by
  fun_induction Lexeme.splitThrough stop bytes with
  | case1 => rfl
  | case2 byte rest atStop =>
      rw [List.takeWhile_cons_of_neg (by simp [atStop])]
      simp
  | case3 byte rest goesOn before after parts inductionHypothesis =>
      simp only [parts] at inductionHypothesis
      rw [List.takeWhile_cons_of_pos (by simp [goesOn])]
      simp only [List.length_cons]
      omega

/-- Whether a position is behind the lexeme that begins with a byte at another, or both are at the end,
and whether the lexeme is not the keyword. -/
structure IsBehind (content keyword : Bytes) (first : UInt8) (position next : Nat) : Prop where
  isLater : position < next
  isNext : min next content.length =
    position + 1 + (Lexeme.split first (content.drop (position + 1))).2.1.length
  other : ¬((Lexeme.split first (content.drop (position + 1))).1 = .word ∧
    first :: (Lexeme.split first (content.drop (position + 1))).2.1 = keyword)

variable {keyword : Bytes} {first : UInt8}

/-- A search goes on behind a lexeme that is not the keyword. -/
theorem IsBehind.findWord_eq {next : Nat}
    (isBehind : IsBehind content keyword first position next)
    (suffix : content.drop position = first :: content.drop (position + 1)) :
    (Lexeme.findWord keyword (content.drop position)).map (position + ·.1.length) =
      (Lexeme.findWord keyword (content.drop next)).map (next + ·.1.length) := by
  have isNext := isBehind.isNext
  have parts := Lexeme.split_append first (content.drop (position + 1))
  rw [suffix, Lexeme.findWord_cons, if_neg isBehind.other]
  generalize Lexeme.split first (content.drop (position + 1)) = lexeme at isNext parts ⊢
  obtain ⟨kind, text, after⟩ := lexeme
  have behind : content.drop (position + 1 + text.length) = after := drop_add_length parts.symm
  rcases Nat.le_total next content.length with inside | outside
  · have same : next = position + 1 + text.length := (Nat.min_eq_left inside).symm.trans isNext
    rw [same, behind, Option.map_map]
    congr 1
    funext found
    simp only [Function.comp_apply, List.length_cons, List.length_append]
    omega
  · rw [Nat.min_eq_right outside] at isNext
    rw [← behind, ← isNext, List.drop_length, List.drop_eq_nil_of_le outside, Lexeme.findWord]
    rfl

/-- A literal string is left behind. -/
theorem isBehind_string (inside : position < content.length) :
    IsBehind content keyword 40 position
      (position + 1 + (Lexeme.splitString 1 (content.drop (position + 1))).1.length) where
  isLater := by omega
  isNext := Nat.min_eq_left (length_splitString_le inside 1)
  other := by simp [Lexeme.split]

/-- A comment is left behind. -/
theorem isBehind_comment (suffix : content.drop position = 37 :: content.drop (position + 1)) :
    IsBehind content keyword 37 position
      (position + ((content.drop position).takeWhile Lexeme.isInLine).length) := by
  have within := (List.takeWhile_sublist Lexeme.isInLine (l := content.drop (position + 1))).length_le
  have lengths := congrArg List.length suffix
  simp only [List.length_drop, List.length_cons] at within lengths
  rw [suffix, List.takeWhile_cons_of_pos (by decide), List.length_cons]
  refine ⟨by omega, ?_, by simp [Lexeme.split]⟩
  show min _ _ = position + 1 + ((content.drop (position + 1)).takeWhile Lexeme.isInLine).length
  omega

/-- Two opening angle brackets are left behind. -/
theorem isBehind_doubleBracket (isDouble : content[position + 1]? = some 60) :
    IsBehind content keyword 60 position (position + 2) := by
  obtain ⟨inside, -⟩ := List.getElem?_eq_some_iff.1 isDouble
  obtain ⟨byte, -, isByte, suffix⟩ := exists_byteAt inside
  rw [isDouble, Option.some.injEq] at isByte
  have isSplit : Lexeme.split 60 (content.drop (position + 1)) =
      (.mark, [60], content.drop (position + 2)) := by
    rw [suffix, ← isByte]
    rfl
  refine ⟨by omega, ?_, by simp [isSplit]⟩
  rw [isSplit, List.length_singleton]
  omega

/-- A hexadecimal string is left behind, and one that is never closed at the position after the end. -/
theorem isBehind_hexString (suffix : content.drop position = 60 :: content.drop (position + 1))
    (isSingle : content[position + 1]? ≠ some 60) :
    IsBehind content keyword 60 position
      (position + ((content.drop position).takeWhile (· != 62)).length + 1) := by
  have lengths := congrArg List.length suffix
  have isSplit : Lexeme.split 60 (content.drop (position + 1)) =
      (.hexString, Lexeme.splitThrough (· == 62) (content.drop (position + 1))) := by
    rw [← List.head?_drop] at isSingle
    exact Lexeme.split_hexString isSingle
  simp only [List.length_drop, List.length_cons] at lengths
  rw [suffix, List.takeWhile_cons_of_pos (by decide), List.length_cons]
  refine ⟨by omega, ?_, by simp [isSplit]⟩
  rw [isSplit, length_splitThrough, List.length_drop]
  show _ = position + 1 + min (((content.drop (position + 1)).takeWhile (· != 62)).length + 1) _
  omega

/-- A name is left behind. -/
theorem isBehind_name (inside : position < content.length) :
    IsBehind content keyword 47 position
      (position + 1 + ((content.drop (position + 1)).takeWhile Bytes.isRegular).length) := by
  have within := (List.takeWhile_sublist Bytes.isRegular (l := content.drop (position + 1))).length_le
  simp only [List.length_drop] at within
  refine ⟨by omega, ?_, by simp [Lexeme.split]⟩
  show min _ _ = position + 1 + ((content.drop (position + 1)).takeWhile Bytes.isRegular).length
  omega

/-- A byte that begins nothing is left behind. -/
theorem isBehind_mark (inside : position < content.length) (opensNothing : Bytes.opens first = false)
    (notRegular : Bytes.isRegular first = false) :
    IsBehind content keyword first position (position + 1) := by
  have isSplit : Lexeme.split first (content.drop (position + 1)) =
      (.mark, [], content.drop (position + 1)) := Lexeme.split_mark opensNothing notRegular
  refine ⟨Nat.lt_succ_self position, ?_, by simp [isSplit]⟩
  rw [isSplit, List.length_nil]
  omega

/-- A word is left behind if it is not the keyword. -/
theorem isBehind_word (suffix : content.drop position = first :: content.drop (position + 1))
    (isSplit : Lexeme.split first (content.drop (position + 1)) =
      (.word, Lexeme.splitWhile Bytes.isRegular (content.drop (position + 1))))
    (isRegular : Bytes.isRegular first = true)
    (other : (content.drop position).takeWhile Bytes.isRegular ≠ keyword) :
    IsBehind content keyword first position
      (position + ((content.drop position).takeWhile Bytes.isRegular).length) := by
  have within := (List.takeWhile_sublist Bytes.isRegular (l := content.drop position)).length_le
  rw [List.length_drop] at within
  rw [suffix, List.takeWhile_cons_of_pos isRegular] at other within ⊢
  rw [List.length_cons] at within ⊢
  refine ⟨by omega, ?_, by simpa [isSplit, Lexeme.splitWhile] using other⟩
  rw [isSplit]
  show min _ _ = position + 1 + ((content.drop (position + 1)).takeWhile Bytes.isRegular).length
  omega

/-- A keyword is found where the search in the rest of the content finds it. -/
theorem findKeyword_eq (enough : content.length - position < steps) :
    findKeyword content keyword steps position =
      .ok ((Lexeme.findWord keyword (content.drop position)).map (position + ·.1.length)) := by
  induction steps generalizing position with
  | zero => omega
  | succ steps inductionHypothesis =>
      rw [findKeyword]
      by_cases inside : position < content.length
      · obtain ⟨first, isByte, isFirst, suffix⟩ := exists_byteAt inside
        have goesOn {next : Nat} (isBehind : IsBehind content keyword first position next) :
            findKeyword content keyword steps next =
              .ok ((Lexeme.findWord keyword (content.drop position)).map (position + ·.1.length)) := by
          have isLater := isBehind.isLater
          rw [inductionHypothesis (by omega), isBehind.findWord_eq suffix]
        have run (keep : UInt8 → Bool) (start : Nat) :
            endWhile content keep (content.length + 1) start =
              .ok (start + ((content.drop start).takeWhile keep).length) :=
          endWhile_eq keep (by omega)
        rw [if_pos inside, isByte]
        show (if first = 40 then _ else if first = 37 then _ else if first = 60 then _
          else if first = 47 then _ else if Bytes.isRegular first then _ else _) = _
        split
        · rename_i isString
          subst isString
          rw [skipString_of_open true isFirst (by omega)]
          exact goesOn (isBehind_string inside)
        split
        · rename_i isComment
          subst isComment
          rw [run]
          exact goesOn (isBehind_comment suffix)
        split
        · rename_i isAngle
          subst isAngle
          split
          · rename_i isDouble
            exact goesOn (isBehind_doubleBracket isDouble)
          · rename_i isSingle
            rw [run]
            exact goesOn (isBehind_hexString suffix isSingle)
        split
        · rename_i isName
          subst isName
          rw [run]
          exact goesOn (isBehind_name inside)
        split
        · rename_i noString noComment noAngle noName isRegular
          have isSplit : Lexeme.split first (content.drop (position + 1)) =
              (.word, Lexeme.splitWhile Bytes.isRegular (content.drop (position + 1))) :=
            Lexeme.split_word isRegular
          have isWord := slice_of_drop (Nat.le_of_lt inside)
            (List.takeWhile_append_dropWhile (p := Bytes.isRegular) (l := content.drop position)).symm
          rw [run]
          show (slice content position _ >>= fun word => if word = keyword then _ else _) = _
          rw [isWord]
          show (if _ = keyword then _ else _) = _
          split
          · rename_i isKeyword
            rw [suffix, List.takeWhile_cons_of_pos isRegular] at isKeyword
            rw [suffix, Lexeme.findWord_cons, isSplit, if_pos ⟨rfl, isKeyword⟩]
            rfl
          · rename_i other
            exact goesOn (isBehind_word suffix isSplit isRegular other)
        · rename_i noString noComment noAngle noName notRegular
          exact goesOn (isBehind_mark inside (by simp [Bytes.opens, *]) (by simpa using notRegular))
      · rw [if_neg inside, List.drop_eq_nil_of_le (Nat.not_lt.1 inside), Lexeme.findWord]
        rfl

/-- What stands before a word that is found, the word and what follows it, by their positions. -/
theorem positions_of_findWord {before after : Bytes} (inside : position ≤ content.length)
    (found : Lexeme.findWord keyword (content.drop position) = some (before, after)) :
    slice content position (position + before.length) = .ok before ∧
      slice? content (position + before.length) (position + before.length + keyword.length) =
        some keyword ∧
      content.drop (position + before.length + keyword.length) = after := by
  have whole := (Lexeme.append_of_findWord found).symm
  rw [List.append_assoc] at whole
  have lengths := congrArg List.length whole
  simp only [List.length_drop, List.length_append] at lengths
  have atWord := drop_add_length whole
  exact ⟨slice_of_drop inside whole, slice?_of_drop (by omega) atWord, drop_add_length atWord⟩

/-! ## The end of the data of inline images -/

/-- An `EI` is taken off exactly where it stands and ends a token. -/
theorem afterEnd?_eq_some_iff {bytes after : Bytes} :
    InlineImage.afterEnd? bytes = some after ↔
      bytes = Bytes.ascii "EI" ++ after ∧ Lexeme.endsToken after = true := by
  have word : Bytes.ascii "EI" = [69, 73] := by decide
  rw [word, InlineImage.afterEnd?.eq_def]
  split
  · rename_i rest
    constructor
    · intro found
      split at found
      · rename_i ends
        rw [← Option.some.inj found]
        exact ⟨rfl, ends⟩
      · cases found
    · rintro ⟨same, ends⟩
      obtain rfl : rest = after :=
        List.append_cancel_left (show [69, 73] ++ rest = [69, 73] ++ after from same)
      exact if_pos ends
  · rename_i noEnd
    exact ⟨nofun, fun ⟨same, _⟩ => (noEnd after same).elim⟩

/-- Whether a token has ended is seen at the byte at the position. -/
theorem endsToken_drop (content : Bytes) (position : Nat) :
    Lexeme.endsToken (content.drop position) = endsTokenAt content position := by
  rw [endsTokenAt, ← List.head?_drop]
  cases content.drop position <;> rfl

/-- An `EI` at a position is seen in the slice of two bytes there. -/
theorem afterEnd?_drop (content : Bytes) (position : Nat) :
    InlineImage.afterEnd? (content.drop position) =
      if slice? content position (position + 2) = some (Bytes.ascii "EI") ∧
          endsTokenAt content (position + 2) then
        some (content.drop (position + 2))
      else none := by
  refine Option.ext fun after => ?_
  rw [afterEnd?_eq_some_iff, Option.ite_none_right_eq_some, Option.some.injEq]
  constructor
  · rintro ⟨parts, ends⟩
    have inside : position ≤ content.length := by
      refine Nat.le_of_not_lt fun outside => ?_
      rw [List.drop_eq_nil_of_le (Nat.le_of_lt outside)] at parts
      cases parts
    have behind : content.drop (position + 2) = after := drop_add_length parts
    rw [← endsToken_drop, behind]
    exact ⟨⟨slice?_of_drop inside parts, ends⟩, rfl⟩
  · rintro ⟨⟨isWord, ends⟩, rfl⟩
    exact ⟨drop_of_slice? isWord, (endsToken_drop content _).trans ends⟩

/-- An `EI` after blanks is found where it stands behind them. -/
theorem endAfterBlanks_eq (content : Bytes) (position : Nat) :
    endAfterBlanks content position =
      .ok ((InlineImage.afterEnd? ((content.drop position).dropWhile Bytes.isBlank)).map
        fun after => content.length - after.length) := by
  have behind : content.drop (position + ((content.drop position).takeWhile Bytes.isBlank).length) =
      (content.drop position).dropWhile Bytes.isBlank :=
    drop_add_length List.takeWhile_append_dropWhile.symm
  rw [endAfterBlanks, endWhile_eq Bytes.isBlank (by omega), ← behind, afterEnd?_drop]
  generalize position + ((content.drop position).takeWhile Bytes.isBlank).length = last
  show (if _ then _ else _) = _
  split
  · rename_i isEnd
    rw [Option.map_some, length_sub_length_drop (le_length_of_slice? isEnd.1)]
    rfl
  · rfl

/-- Data that is shorter than a blank and an `EI` has no end. -/
theorem scanAfterBlank_short {bytes : Bytes} (short : bytes.length ≤ 2) :
    InlineImage.scanAfterBlank bytes = none := by
  match bytes, short with
  | [], _ => rfl
  | [_], _ => simp [InlineImage.scanAfterBlank, InlineImage.afterEnd?]
  | [_, _], _ => simp [InlineImage.scanAfterBlank, InlineImage.afterEnd?]

/-- Two bytes inside of the content are taken as a slice, in which an `EI` is seen. -/
theorem exists_slice_of_le (inside : position + 2 ≤ content.length) :
    ∃ word, slice content position (position + 2) = .ok word ∧
      InlineImage.afterEnd? (content.drop position) =
        if word = Bytes.ascii "EI" ∧ endsTokenAt content (position + 2) then
          some (content.drop (position + 2))
        else none := by
  obtain ⟨word, isSlice⟩ : ∃ word, slice? content position (position + 2) = some word :=
    ⟨_, if_pos ⟨by omega, inside⟩⟩
  refine ⟨word, by rw [slice, isSlice]; rfl, ?_⟩
  simp only [afterEnd?_drop, isSlice, Option.some.injEq]

/-- Behind its first position, a scan for the end looks for an `EI` after a blank. -/
theorem scanForEnd_later {start : Nat} (behind : start ≤ position)
    (enough : content.length - (position + 1) < steps) :
    scanForEnd content start steps (position + 1) =
      .ok ((InlineImage.scanAfterBlank (content.drop position)).map fun found =>
        (position + found.1.length, content.length - found.2.length)) := by
  induction steps generalizing position with
  | zero => omega
  | succ steps inductionHypothesis =>
      rw [scanForEnd]
      split
      · rename_i inside
        have here : position < content.length := by omega
        have fewer : content.length - (position + 1 + 1) < steps := by omega
        obtain ⟨byte, isByte, -, suffix⟩ := exists_byteAt here
        obtain ⟨word, isWord, isEnd⟩ := exists_slice_of_le inside
        have further := inductionHypothesis (Nat.le_succ_of_le behind) fewer
        have goesOn (noEnd : (if Bytes.isBlank byte then
            InlineImage.afterEnd? (content.drop (position + 1)) else none) = none) :
            scanForEnd content start steps (position + 1 + 1) =
              .ok ((InlineImage.scanAfterBlank (content.drop position)).map fun found =>
                (position + found.1.length, content.length - found.2.length)) := by
          rw [further, suffix, InlineImage.scanAfterBlank, noEnd]
          simp only [Option.map_map]
          congr 2
          funext found
          simp only [Function.comp_apply, List.length_cons, Prod.mk.injEq, and_true]
          omega
        -- The byte before the position of the `EI` is the one at which the search stands.
        rw [isWord]
        show (if _ then (if _ then _ else (byteAt content position >>= fun byte =>
          if Bytes.isBlank byte then _ else _)) else _) = _
        rw [isByte]
        split
        · rename_i isFound
          rw [if_pos isFound] at isEnd
          rw [if_neg (by omega)]
          show (if Bytes.isBlank byte then _ else _) = _
          split
          · rename_i isBlank
            rw [suffix, InlineImage.scanAfterBlank, if_pos isBlank, isEnd]
            simp only [Option.map_some, List.length_nil, length_sub_length_drop inside]
            rfl
          · rename_i notBlank
            exact goesOn (if_neg notBlank)
        · rename_i noWord
          rw [if_neg noWord] at isEnd
          exact goesOn (by rw [isEnd, ite_self])
      · rename_i outside
        rw [scanAfterBlank_short (by rw [List.length_drop]; omega)]
        rfl

/-- A scan for the end finds what the search in the rest of the content finds. -/
theorem scanForEnd_eq {start : Nat} (enough : content.length - start < steps) :
    scanForEnd content start steps start =
      .ok ((InlineImage.scan? (content.drop start)).map fun found =>
        (start + found.1.length, content.length - found.2.length)) := by
  cases steps with
  | zero => omega
  | succ steps =>
      rw [scanForEnd, InlineImage.scan?]
      split
      · rename_i inside
        obtain ⟨word, isWord, isEnd⟩ := exists_slice_of_le inside
        rw [isWord]
        show (if _ then (if start = start then _ else _) else _) = _
        split
        · rename_i isFound
          rw [if_pos isFound] at isEnd
          rw [isEnd, if_pos rfl]
          simp only [Option.map_some, List.length_nil, length_sub_length_drop inside]
          rfl
        · rename_i noWord
          rw [if_neg noWord] at isEnd
          rw [isEnd, scanForEnd_later Nat.le.refl (by omega)]
      · rename_i outside
        have short : (content.drop start).length < 2 := by
          rw [List.length_drop]
          omega
        have noEnd : InlineImage.afterEnd? (content.drop start) = none := by
          rw [afterEnd?_drop, if_neg (by simp [slice?]; omega)]
        rw [noEnd, scanAfterBlank_short (by omega)]
        rfl

/-! ## Results inside of the content -/

/-- A run of bytes is left inside of the content. -/
theorem endWhile_ends (keep : UInt8 → Bool) (inside : position ≤ content.length)
    (enough : content.length - position < steps) :
    ∃ stop, endWhile content keep steps position = .ok stop ∧
      content.drop stop = (content.drop position).dropWhile keep ∧
      position ≤ stop ∧ stop ≤ content.length := by
  have within := (List.takeWhile_sublist keep (l := content.drop position)).length_le
  rw [List.length_drop] at within
  exact ⟨_, endWhile_eq keep enough, drop_add_length List.takeWhile_append_dropWhile.symm,
    by omega, by omega⟩

/-- A scan of a literal string that begins at an open parenthesis ends behind it, and finds every
parenthesis open that it closes. -/
theorem skipString_ends (checked : Bool) (isOpen : content[position]? = some 40)
    (enough : content.length - position < steps) :
    ∃ stop, skipString content checked steps position 0 = .ok stop ∧
      content.drop stop = (Lexeme.splitString 1 (content.drop (position + 1))).2 ∧
      position < stop ∧ stop ≤ content.length := by
  obtain ⟨inside, -⟩ := List.getElem?_eq_some_iff.1 isOpen
  exact ⟨_, skipString_of_open checked isOpen enough,
    drop_add_length (Lexeme.splitString_append 1 _).symm, by omega, length_splitString_le inside 1⟩

/-- A keyword that is found stands inside of the content. -/
theorem findKeyword_ends (keyword : Bytes) (inside : position ≤ content.length)
    (enough : content.length - position < steps) :
    ∃ found, findKeyword content keyword steps position = .ok found ∧
      found = (Lexeme.findWord keyword (content.drop position)).map (position + ·.1.length) ∧
      ∀ word ∈ found, position ≤ word ∧
        slice? content word (word + keyword.length) = some keyword := by
  refine ⟨_, findKeyword_eq enough, rfl, fun word isFound => ?_⟩
  obtain ⟨⟨before, after⟩, found, rfl⟩ := Option.map_eq_some_iff.1 isFound
  exact ⟨Nat.le_add_right _ _, (positions_of_findWord inside found).2.1⟩

/-- Where an `EI` goes before what is left, it ends at the position of what is left. -/
theorem positions_of_suffix {before after : Bytes} (inside : position ≤ content.length)
    (parts : content.drop position = before ++ (Bytes.ascii "EI" ++ after)) :
    position + before.length + 2 = content.length - after.length ∧
      slice? content (content.length - after.length - 2) (content.length - after.length) =
        some (Bytes.ascii "EI") ∧
      content.drop (content.length - after.length) = after := by
  have lengths := congrArg List.length parts
  simp only [List.length_drop, List.length_append, show (Bytes.ascii "EI").length = 2 from rfl]
    at lengths
  have atEnd := drop_add_length parts
  have isStop : content.length - after.length = position + before.length + 2 := by omega
  rw [isStop]
  exact ⟨rfl, slice?_of_drop (by omega) atEnd, drop_add_length atEnd⟩

/-- An `EI` that only blanks go before stands inside of the content. -/
theorem endAfterBlanks_ends (inside : position ≤ content.length) :
    ∃ found, endAfterBlanks content position = .ok found ∧
      found.map content.drop =
        InlineImage.afterEnd? ((content.drop position).dropWhile Bytes.isBlank) ∧
      ∀ next ∈ found, position + 2 ≤ next ∧
        slice? content (next - 2) next = some (Bytes.ascii "EI") := by
  refine ⟨_, endAfterBlanks_eq content position, ?_⟩
  cases isEnd : InlineImage.afterEnd? ((content.drop position).dropWhile Bytes.isBlank) with
  | none => exact ⟨rfl, nofun⟩
  | some after =>
      have whole := List.takeWhile_append_dropWhile (p := Bytes.isBlank) (l := content.drop position)
      rw [(afterEnd?_eq_some_iff.1 isEnd).1] at whole
      obtain ⟨isBehind, isWord, isAfter⟩ := positions_of_suffix inside whole.symm
      refine ⟨congrArg some isAfter, fun next isNext => ?_⟩
      obtain rfl : content.length - after.length = next := Option.some.inj isNext
      exact ⟨by omega, isWord⟩

/-- Data before an `EI` after a blank. -/
theorem parts_of_scanAfterBlank {bytes data after : Bytes}
    (found : InlineImage.scanAfterBlank bytes = some (data, after)) :
    ∃ blanks, bytes = data ++ (blanks ++ (Bytes.ascii "EI" ++ after)) := by
  induction bytes generalizing data with
  | nil => cases found
  | cons byte rest inductionHypothesis =>
      simp only [InlineImage.scanAfterBlank] at found
      split at found
      · rename_i isEnd
        obtain ⟨rfl, rfl⟩ := Prod.mk.inj (Option.some.inj found)
        rw [Option.ite_none_right_eq_some] at isEnd
        exact ⟨[byte], congrArg (byte :: ·) (afterEnd?_eq_some_iff.1 isEnd.2).1⟩
      · obtain ⟨⟨others, _⟩, later, isFound⟩ := Option.map_eq_some_iff.1 found
        obtain ⟨rfl, rfl⟩ := Prod.mk.inj isFound
        obtain ⟨blanks, parts⟩ := inductionHypothesis later
        exact ⟨blanks, congrArg (byte :: ·) parts⟩

/-- Data that is found by its end goes before blanks and an `EI`. -/
theorem parts_of_scan? {bytes data after : Bytes}
    (found : InlineImage.scan? bytes = some (data, after)) :
    ∃ blanks, bytes = data ++ (blanks ++ (Bytes.ascii "EI" ++ after)) := by
  rw [InlineImage.scan?] at found
  split at found
  · rename_i isEnd
    obtain ⟨rfl, rfl⟩ := Prod.mk.inj (Option.some.inj found)
    exact ⟨[], (afterEnd?_eq_some_iff.1 isEnd).1⟩
  · exact parts_of_scanAfterBlank found

/-- The end of data that is found by a scan, and the `EI` behind it, stand inside of the content. -/
theorem scanForEnd_ends (inside : position ≤ content.length)
    (enough : content.length - position < steps) :
    ∃ found, scanForEnd content position steps position = .ok found ∧
      found = (InlineImage.scan? (content.drop position)).map (fun parts =>
        (position + parts.1.length, content.length - parts.2.length)) ∧
      ∀ stop next, found = some (stop, next) → position ≤ stop ∧ stop + 2 ≤ next ∧
        slice? content (next - 2) next = some (Bytes.ascii "EI") := by
  refine ⟨_, scanForEnd_eq enough, rfl, fun stop next isFound => ?_⟩
  obtain ⟨⟨data, after⟩, found, same⟩ := Option.map_eq_some_iff.1 isFound
  obtain ⟨rfl, rfl⟩ := Prod.mk.inj same
  obtain ⟨blanks, parts⟩ := parts_of_scan? found
  rw [← List.append_assoc] at parts
  obtain ⟨isBehind, isWord, -⟩ := positions_of_suffix inside parts
  rw [List.length_append] at isBehind
  exact ⟨Nat.le_add_right _ _, by simp only; omega, isWord⟩

/-- Whether every scanner ends within some steps from a position, finds what is found in the rest of the
content, and finds it inside of the content. -/
structure ScannersEnd (content : Bytes) (position steps : Nat) : Prop where
  run : ∀ keep, ∃ stop, endWhile content keep steps position = .ok stop ∧
    content.drop stop = (content.drop position).dropWhile keep ∧
    position ≤ stop ∧ stop ≤ content.length
  /-- A scan of a literal string ends even where no parenthesis is open. -/
  anyString : ∀ checked,
    HasEnded content checked position (skipString content checked steps position 0)
  /-- From an open parenthesis on, none closes that is not open. -/
  string : ∀ checked, content[position]? = some 40 →
    ∃ stop, skipString content checked steps position 0 = .ok stop ∧
      content.drop stop = (Lexeme.splitString 1 (content.drop (position + 1))).2 ∧
      position < stop ∧ stop ≤ content.length
  keyword : ∀ keyword, ∃ found, findKeyword content keyword steps position = .ok found ∧
    found = (Lexeme.findWord keyword (content.drop position)).map (position + ·.1.length) ∧
    ∀ word ∈ found, position ≤ word ∧ slice? content word (word + keyword.length) = some keyword
  afterBlanks : ∃ found, endAfterBlanks content position = .ok found ∧
    found.map content.drop =
      InlineImage.afterEnd? ((content.drop position).dropWhile Bytes.isBlank) ∧
    ∀ next ∈ found, position + 2 ≤ next ∧
      slice? content (next - 2) next = some (Bytes.ascii "EI")
  dataEnd : ∃ found, scanForEnd content position steps position = .ok found ∧
    found = (InlineImage.scan? (content.drop position)).map (fun parts =>
      (position + parts.1.length, content.length - parts.2.length)) ∧
    ∀ stop next, found = some (stop, next) → position ≤ stop ∧ stop + 2 ≤ next ∧
      slice? content (next - 2) next = some (Bytes.ascii "EI")

/-- Every scanner ends from every position of the content, within one step more than there are bytes
left. -/
theorem scannersEnd (inside : position ≤ content.length)
    (enough : content.length - position < steps) : ScannersEnd content position steps where
  run keep := endWhile_ends keep inside enough
  anyString checked := hasEnded_skipString checked 0 enough
  string checked isOpen := skipString_ends checked isOpen enough
  keyword keyword := findKeyword_ends keyword inside enough
  afterBlanks := endAfterBlanks_ends inside
  dataEnd := scanForEnd_ends inside enough

end Positions
end Monochrome
