import Monochrome.Proofs.Content.Positions

/-!
# The lexemes that content is made of

Which texts a lexeme can have, and what can follow it, is told by a grammar that reads nothing: a literal
string ends with the parenthesis that balances its first one, a hexadecimal string with the next closing
bracket, a comment with its line, and a name or a word where no regular byte follows.  Every content has
exactly one sequence of such lexemes from every position.  A search for a keyword finds the first of them
that is the keyword, and nothing that is only a part of one.
-/

namespace Monochrome
namespace Lexeme

variable {kind : Lexeme} {body text rest bytes : Bytes} {depth : Nat}

/-! ## The grammar of lexemes -/

/-- Bytes whose parentheses balance.  A byte behind a backslash is hidden, and balances nothing. -/
inductive Balanced : Bytes → Prop
  | nil : Balanced []
  | plain {byte : UInt8} {others : Bytes} (isPlain : byte ≠ 40 ∧ byte ≠ 41 ∧ byte ≠ 92)
      (balanced : Balanced others) : Balanced (byte :: others)
  | hidden (byte : UInt8) {others : Bytes} (balanced : Balanced others) :
      Balanced (92 :: byte :: others)
  | pair {inner others : Bytes} (inside : Balanced inner) (balanced : Balanced others) :
      Balanced (40 :: inner ++ 41 :: others)

/-- Whether one more parenthesis closes in bytes than opens. -/
def Closes (bytes : Bytes) : Prop :=
  ∃ body rest, Balanced body ∧ bytes = body ++ 41 :: rest

/-- Whether a lexeme of a kind can have a text before the given rest of the content. -/
inductive Begins : Lexeme → Bytes → Bytes → Prop
  | closedString {body : Bytes} (balanced : Balanced body) (rest : Bytes) :
      Begins .literalString (40 :: (body ++ [41])) rest
  /-- A string that is never closed reaches to the end. -/
  | openString {body : Bytes} (isOpen : ¬Closes body) : Begins .literalString (40 :: body) []
  | closedHexString {body : Bytes} (isInside : 62 ∉ body) (isSingle : body.head? ≠ some 60)
      (rest : Bytes) : Begins .hexString (60 :: (body ++ [62])) rest
  /-- A hexadecimal string that is never closed reaches to the end. -/
  | openHexString {body : Bytes} (isInside : 62 ∉ body) (isSingle : body.head? ≠ some 60) :
      Begins .hexString (60 :: body) []
  | comment {body rest : Bytes} (isInside : ∀ byte ∈ body, isInLine byte = true)
      (ends : ∀ byte ∈ rest.head?, isInLine byte = false) : Begins .comment (37 :: body) rest
  | name {body rest : Bytes} (isInside : ∀ byte ∈ body, Bytes.isRegular byte = true)
      (ends : ∀ byte ∈ rest.head?, Bytes.isRegular byte = false) : Begins .name (47 :: body) rest
  | word {text rest : Bytes} (nonempty : text ≠ [])
      (isInside : ∀ byte ∈ text, Bytes.isRegular byte = true)
      (ends : ∀ byte ∈ rest.head?, Bytes.isRegular byte = false) : Begins .word text rest
  /-- Two opening brackets begin no hexadecimal string. -/
  | doubleBracket (rest : Bytes) : Begins .mark [60, 60] rest
  | mark {byte : UInt8} (opensNothing : Bytes.opens byte = false)
      (notRegular : Bytes.isRegular byte = false) (rest : Bytes) : Begins .mark [byte] rest

/-! ## Literal strings -/

/-- Balanced bytes are inside of a string, however many parentheses are open. -/
theorem splitString_balanced (balanced : Balanced body) (isOpen : 1 ≤ depth) (rest : Bytes) :
    splitString depth (body ++ rest) =
      (body ++ (splitString depth rest).1, (splitString depth rest).2) := by
  induction balanced generalizing depth rest with
  | nil => rfl
  | plain isPlain _ inductionHypothesis =>
      obtain ⟨notOpening, notClosing, noBackslash⟩ := isPlain
      rw [List.cons_append, splitString_other notOpening notClosing noBackslash,
        inductionHypothesis isOpen]
      rfl
  | hidden byte _ inductionHypothesis =>
      rw [List.cons_append, List.cons_append, splitString_hidden, inductionHypothesis isOpen]
      rfl
  | pair _ _ ofInner ofOthers =>
      rw [List.append_assoc, List.cons_append, List.cons_append, splitString_open,
        ofInner (by omega), splitString_close_inner (by omega), Nat.add_sub_cancel, ofOthers isOpen]
      simp

/-- Bytes that close as many parentheses as given, and end with the last of them. -/
inductive Unwinds : Nat → Bytes → Prop
  | nil : Unwinds 0 []
  | close {depth : Nat} {body text : Bytes} (balanced : Balanced body) (others : Unwinds depth text) :
      Unwinds (depth + 1) (body ++ 41 :: text)

/-- A text that keeps what follows it balanced can stand before bytes that close something. -/
theorem Unwinds.prepend (unwinds : Unwinds depth text) (isOpen : 1 ≤ depth) (start : Bytes)
    (keeps : ∀ body, Balanced body → Balanced (start ++ body)) : Unwinds depth (start ++ text) := by
  cases unwinds with
  | nil => omega
  | close balanced others =>
      rw [← List.append_assoc]
      exact .close (keeps _ balanced) others

/-- A parenthesis that opens is closed before the others. -/
theorem Unwinds.open (unwinds : Unwinds (depth + 1) text) (isOpen : 1 ≤ depth) :
    Unwinds depth (40 :: text) := by
  cases unwinds with
  | close inside others =>
      cases others with
      | nil => omega
      | close balanced others =>
          have closed := Unwinds.close (.pair inside balanced) others
          rwa [List.append_assoc] at closed

/-- Bytes that close one parenthesis are balanced before it. -/
theorem Unwinds.exists_balanced (unwinds : Unwinds 1 text) :
    ∃ body, Balanced body ∧ text = body ++ [41] := by
  cases unwinds with
  | close balanced others =>
      cases others
      exact ⟨_, balanced, rfl⟩

/-- A string that does not reach to the end closes the parentheses that are open. -/
theorem unwinds_splitString (isOpen : 1 ≤ depth) (goesOn : (splitString depth bytes).2 ≠ []) :
    Unwinds depth (splitString depth bytes).1 := by
  fun_induction splitString depth bytes with
  | case1 => exact (goesOn rfl).elim
  | case2 => exact (goesOn rfl).elim
  | case3 depth hidden rest string after parts inductionHypothesis =>
      rw [parts] at inductionHypothesis
      exact (inductionHypothesis isOpen goesOn).prepend isOpen [92, hidden] fun _ => .hidden hidden
  | case4 depth byte rest noBackslash closes =>
      simp only [Bool.and_eq_true, decide_eq_true_eq] at closes
      obtain rfl : depth = 1 := by omega
      exact closes.1 ▸ .close .nil .nil
  | case5 depth byte rest noBackslash inner next string after parts inductionHypothesis =>
      rw [parts] at inductionHypothesis
      by_cases opening : byte = 40
      · have deeper : next = depth + 1 := by simp [next, opening]
        rw [deeper] at inductionHypothesis
        exact opening ▸ (inductionHypothesis (by omega) goesOn).open isOpen
      by_cases closing : byte = 41
      · simp only [closing, decide_true, Bool.true_and, decide_eq_true_eq] at inner
        obtain ⟨outer, rfl⟩ : ∃ outer, depth = outer + 1 := ⟨depth - 1, by omega⟩
        have shallower : next = outer := by simp [next, closing]
        rw [shallower] at inductionHypothesis
        exact closing ▸ Unwinds.close .nil (inductionHypothesis (by omega) goesOn)
      · have same : next = depth := by simp [next, opening, closing]
        rw [same] at inductionHypothesis
        exact (inductionHypothesis isOpen goesOn).prepend isOpen [byte]
          fun _ => .plain ⟨opening, closing, noBackslash⟩

/-- A string that closes ends with its last parenthesis. -/
theorem splitString_of_balanced (balanced : Balanced body) (rest : Bytes) :
    splitString 1 (body ++ 41 :: rest) = (body ++ [41], rest) := by
  rw [splitString_balanced balanced Nat.le.refl, splitString_close]

/-- A string that never closes reaches to the end. -/
theorem splitString_of_not_closes (isOpen : ¬Closes bytes) : splitString 1 bytes = (bytes, []) := by
  have whole := splitString_append 1 bytes
  have ends : (splitString 1 bytes).2 = [] := by
    refine Classical.byContradiction fun goesOn => ?_
    obtain ⟨body, balanced, isText⟩ := (unwinds_splitString Nat.le.refl goesOn).exists_balanced
    rw [isText, List.append_assoc, List.singleton_append] at whole
    exact isOpen ⟨body, _, balanced, whole.symm⟩
  rw [ends, List.append_nil] at whole
  exact Prod.ext whole ends

/-! ## Runs of bytes -/

/-- Bytes without a match are all before one. -/
theorem splitThrough_of_not_mem {last : UInt8} (noMatch : last ∉ bytes) :
    splitThrough (· == last) bytes = (bytes, []) := by
  induction bytes with
  | nil => rfl
  | cons byte more inductionHypothesis =>
      obtain ⟨other, others⟩ := not_or.1 (List.mem_cons.not.1 noMatch)
      simp [splitThrough, Ne.symm other, inductionHypothesis others]

/-- Bytes up to the first match. -/
theorem splitThrough_of_mem {last : UInt8} (noMatch : last ∉ body) (rest : Bytes) :
    splitThrough (· == last) (body ++ last :: rest) = (body ++ [last], rest) := by
  refine splitThrough_append_cons _ rest (fun byte inBody => ?_) (beq_self_eq_true last)
  exact beq_false_of_ne fun same => noMatch (same ▸ inBody)

/-! ## The first lexeme -/

/-- What the grammar allows is taken off as the first lexeme. -/
theorem split_of_begins (begins : Begins kind text rest) :
    ∃ first more, text = first :: more ∧ split first (more ++ rest) = (kind, more, rest) := by
  cases begins with
  | @closedString body balanced =>
      refine ⟨40, body ++ [41], rfl, ?_⟩
      rw [List.append_assoc, List.singleton_append, split_literalString,
        splitString_of_balanced balanced]
  | @openString body isOpen =>
      refine ⟨40, body, rfl, ?_⟩
      rw [List.append_nil, split_literalString, splitString_of_not_closes isOpen]
  | @closedHexString body isInside isSingle =>
      refine ⟨60, body ++ [62], rfl, ?_⟩
      have single : (body ++ 62 :: rest).head? ≠ some 60 := by
        cases body with
        | nil => simp
        | cons byte more => exact isSingle
      rw [List.append_assoc, List.singleton_append, split_hexString single, splitThrough_of_mem isInside]
  | @openHexString body isInside isSingle =>
      refine ⟨60, body, rfl, ?_⟩
      rw [List.append_nil, split_hexString isSingle, splitThrough_of_not_mem isInside]
  | @comment body _ isInside ends =>
      refine ⟨37, body, rfl, ?_⟩
      rw [split_comment, splitWhile_eq_iff.2 ⟨rfl, isInside, ends⟩]
  | @name body _ isInside ends =>
      refine ⟨47, body, rfl, ?_⟩
      rw [split_name, splitWhile_eq_iff.2 ⟨rfl, isInside, ends⟩]
  | word nonempty isInside ends =>
      obtain ⟨first, more, rfl⟩ := List.exists_cons_of_ne_nil nonempty
      obtain ⟨isRegular, others⟩ := List.forall_mem_cons.1 isInside
      refine ⟨first, more, rfl, ?_⟩
      rw [split_word isRegular, splitWhile_eq_iff.2 ⟨rfl, others, ends⟩]
  | doubleBracket => exact ⟨60, [60], rfl, rfl⟩
  | @mark byte opensNothing notRegular =>
      exact ⟨byte, [], rfl, split_mark opensNothing notRegular⟩

/-- What is taken off as the first lexeme is allowed by the grammar. -/
theorem begins_split (first : UInt8) (bytes : Bytes) :
    Begins (split first bytes).1 (first :: (split first bytes).2.1) (split first bytes).2.2 := by
  by_cases isString : first = 40
  · subst isString
    rw [split_literalString]
    by_cases closes : Closes bytes
    · obtain ⟨body, rest, balanced, rfl⟩ := closes
      rw [splitString_of_balanced balanced]
      exact .closedString balanced rest
    · rw [splitString_of_not_closes closes]
      exact .openString closes
  by_cases isComment : first = 37
  · subst isComment
    obtain ⟨-, isInside, ends⟩ := splitWhile_eq_iff.1 (rfl : splitWhile isInLine bytes = (_, _))
    rw [split_comment]
    exact .comment isInside ends
  by_cases isBracket : first = 60
  · subst isBracket
    by_cases isDouble : bytes.head? = some 60
    · obtain ⟨rest, rfl⟩ := List.head?_eq_some_iff.1 isDouble
      exact .doubleBracket rest
    rw [split_hexString isDouble]
    by_cases closes : 62 ∈ bytes
    · obtain ⟨body, rest, rfl, isInside⟩ := List.eq_append_cons_of_mem closes
      rw [splitThrough_of_mem isInside]
      refine .closedHexString isInside (fun isFirst => isDouble ?_) rest
      obtain ⟨more, rfl⟩ := List.head?_eq_some_iff.1 isFirst
      rfl
    · rw [splitThrough_of_not_mem closes]
      exact .openHexString closes isDouble
  by_cases isName : first = 47
  · subst isName
    obtain ⟨-, isInside, ends⟩ :=
      splitWhile_eq_iff.1 (rfl : splitWhile Bytes.isRegular bytes = (_, _))
    rw [split_name]
    exact .name isInside ends
  cases isRegular : Bytes.isRegular first with
  | true =>
      obtain ⟨-, isInside, ends⟩ :=
        splitWhile_eq_iff.1 (rfl : splitWhile Bytes.isRegular bytes = (_, _))
      rw [split_word isRegular]
      exact .word (List.cons_ne_nil _ _) (List.forall_mem_cons.2 ⟨isRegular, isInside⟩) ends
  | false =>
      have opensNothing : Bytes.opens first = false := by simp [Bytes.opens, *]
      rw [split_mark opensNothing isRegular]
      exact .mark opensNothing isRegular bytes

/-! ## Lexings -/

/-- A lexeme of content. -/
structure Token where
  kind : Lexeme
  start : Nat
  text : Bytes
deriving DecidableEq

/-- Whether a position is inside of a lexeme: behind its first byte, and not behind its last. -/
def Token.HasInside (token : Token) (position : Nat) : Prop :=
  token.start < position ∧ position < token.start + token.text.length

/-- The lexemes of content from a position to its end. -/
inductive IsLexing (content : Bytes) : Nat → List Token → Prop
  | ended {position : Nat} (atEnd : content.length ≤ position) : IsLexing content position []
  | token {position : Nat} {kind : Lexeme} {text rest : Bytes} {tokens : List Token}
      (parts : content.drop position = text ++ rest) (begins : Begins kind text rest)
      (others : IsLexing content (position + text.length) tokens) :
      IsLexing content position (⟨kind, position, text⟩ :: tokens)

variable {content keyword : Bytes} {position : Nat} {tokens others whole : List Token}

/-- A position before a lexeme is inside of the content. -/
theorem lt_length_of_begins (parts : content.drop position = text ++ rest)
    (begins : Begins kind text rest) : position < content.length := by
  obtain ⟨first, more, rfl, -⟩ := split_of_begins begins
  refine Nat.lt_of_not_le fun outside => ?_
  rw [List.drop_eq_nil_of_le outside] at parts
  cases parts

/-- Two lexemes that begin content are the same. -/
theorem Begins.unique {otherKind : Lexeme} {otherText otherRest : Bytes}
    (begins : Begins kind text rest) (otherBegins : Begins otherKind otherText otherRest)
    (same : text ++ rest = otherText ++ otherRest) : otherKind = kind ∧ otherText = text := by
  obtain ⟨first, more, rfl, isSplit⟩ := split_of_begins begins
  obtain ⟨otherFirst, otherMore, rfl, otherSplit⟩ := split_of_begins otherBegins
  rw [List.cons_append, List.cons_append, List.cons.injEq] at same
  obtain ⟨rfl, sameMore⟩ := same
  rw [sameMore, otherSplit] at isSplit
  obtain ⟨rfl, sameParts⟩ := Prod.mk.inj isSplit
  exact ⟨rfl, congrArg (first :: ·) (Prod.mk.inj sameParts).1⟩

/-- Content has no two lexings from a position. -/
theorem IsLexing.unique (isLexing : IsLexing content position tokens)
    (other : IsLexing content position others) : others = tokens := by
  induction isLexing generalizing others with
  | ended atEnd =>
      cases other with
      | ended => rfl
      | token parts begins => exact (Nat.not_lt.2 atEnd (lt_length_of_begins parts begins)).elim
  | token parts begins _ inductionHypothesis =>
      cases other with
      | ended atEnd => exact (Nat.not_lt.2 atEnd (lt_length_of_begins parts begins)).elim
      | token otherParts otherBegins otherLater =>
          obtain ⟨rfl, rfl⟩ := begins.unique otherBegins (parts.symm.trans otherParts)
          rw [inductionHypothesis otherLater]

/-- Content has a lexing from every position. -/
theorem exists_isLexing (content : Bytes) (position : Nat) :
    ∃ tokens, IsLexing content position tokens := by
  by_cases inside : position < content.length
  · have suffix := List.drop_eq_getElem_cons inside
    have parts := split_append content[position] (content.drop (position + 1))
    obtain ⟨tokens, isLexing⟩ := exists_isLexing content
      (position + (content[position] ::
        (split content[position] (content.drop (position + 1))).2.1).length)
    refine ⟨_, .token ?_ (begins_split content[position] (content.drop (position + 1))) isLexing⟩
    rw [suffix, List.cons_append, parts]
  · exact ⟨[], .ended (Nat.not_lt.1 inside)⟩
termination_by content.length - position

/-- Lexemes begin where they are looked for or later. -/
theorem IsLexing.le_start (isLexing : IsLexing content position tokens) :
    ∀ token ∈ tokens, position ≤ token.start := by
  induction isLexing with
  | ended => simp
  | token _ _ _ inductionHypothesis =>
      refine List.forall_mem_cons.2 ⟨Nat.le_refl _, fun token later => ?_⟩
      exact Nat.le_trans (Nat.le_add_right _ _) (inductionHypothesis token later)

/-- The lexemes from a position that is inside of none are the lexemes of all the content that are not
before it. -/
theorem IsLexing.restrict {start : Nat} (isLexing : IsLexing content start whole)
    (isLater : start ≤ position) (between : ∀ token ∈ whole, ¬token.HasInside position) :
    IsLexing content position (whole.filter (position ≤ ·.start)) := by
  induction isLexing with
  | ended atEnd => exact .ended (Nat.le_trans atEnd isLater)
  | @token start kind text rest tokens parts begins others inductionHypothesis =>
      obtain ⟨outside, betweenOthers⟩ := List.forall_mem_cons.1 between
      by_cases isHere : start = position
      · have isLexing := IsLexing.token parts begins others
        rw [isHere] at isLexing
        rwa [isHere, List.filter_eq_self.2 fun token isToken =>
          decide_eq_true (isLexing.le_start token isToken)]
      · have isBefore : ¬position ≤ start := by omega
        have isBehind : start + text.length ≤ position :=
          Nat.le_of_not_lt fun inside => outside ⟨Nat.lt_of_not_le isBefore, inside⟩
        rw [List.filter_cons_of_neg (by simpa using isBefore)]
        exact inductionHypothesis isBehind betweenOthers

/-- No lexeme but a word can be a keyword. -/
theorem Begins.isWord (begins : Begins kind text rest)
    (regular : ∀ byte ∈ text, Bytes.isRegular byte = true) : kind = .word := by
  have isFirst (byte : UInt8) (more : Bytes) (isText : text = byte :: more) :
      Bytes.isRegular byte = true := regular byte (by simp [isText])
  cases begins with
  | word => rfl
  | mark _ notRegular => exact absurd (isFirst _ _ rfl) (by simp [notRegular])
  | _ => exact absurd (isFirst _ _ rfl) (by decide)

/-- Every lexeme of content that is a keyword is a word. -/
theorem IsLexing.kind_eq_word (isLexing : IsLexing content position tokens)
    (regular : ∀ byte ∈ keyword, Bytes.isRegular byte = true) :
    ∀ token ∈ tokens, token.text = keyword → token.kind = .word := by
  induction isLexing with
  | ended => simp
  | token _ begins _ inductionHypothesis =>
      refine List.forall_mem_cons.2 ⟨fun isKeyword => ?_, inductionHypothesis⟩
      exact begins.isWord fun byte inText => regular byte (isKeyword ▸ inText)

/-- A search for a keyword finds the first lexeme that is the keyword. -/
theorem IsLexing.findWord_eq (isLexing : IsLexing content position tokens)
    (regular : ∀ byte ∈ keyword, Bytes.isRegular byte = true) :
    (findWord keyword (content.drop position)).map (position + ·.1.length) =
      (tokens.find? (·.text = keyword)).map Token.start := by
  induction isLexing with
  | ended atEnd =>
      rw [List.drop_eq_nil_of_le atEnd, findWord]
      rfl
  | @token position kind text rest tokens parts begins others inductionHypothesis =>
      have behind : content.drop (position + text.length) = rest := Positions.drop_add_length parts
      obtain ⟨first, more, rfl, isSplit⟩ := split_of_begins begins
      rw [behind] at inductionHypothesis
      rw [parts, List.cons_append, findWord_cons, isSplit, List.find?_cons]
      by_cases isKeyword : first :: more = keyword
      · have isWord := begins.isWord (isKeyword ▸ regular)
        simp [isWord, isKeyword]
      · simp only [isKeyword, and_false, if_false, decide_false, Option.map_map]
        rw [← inductionHypothesis]
        congr 1
        funext found
        simp only [Function.comp_apply, List.length_cons, List.length_append]
        omega

end Lexeme

namespace Positions
open Lexeme

/-- From every position, content has one sequence of lexemes; if the position is inside of no lexeme of all
the content, it is what is left of those.  The scanner for a keyword of regular bytes ends with the start of
the first lexeme that is the keyword, or with none if there is none, and so does the search in what is left
of the content.  Such a lexeme is a word, and never inside of a string, a comment or a name. -/
theorem findKeyword_eq_find? {content keyword : Bytes} {position steps : Nat}
    (regular : ∀ byte ∈ keyword, Bytes.isRegular byte = true)
    (enough : content.length - position < steps) :
    ∃ tokens, (∀ others, IsLexing content position others ↔ others = tokens) ∧
      (∀ whole, IsLexing content 0 whole → (∀ token ∈ whole, ¬token.HasInside position) →
        tokens = whole.filter (position ≤ ·.start)) ∧
      findKeyword content keyword steps position =
        .ok ((tokens.find? (·.text = keyword)).map Token.start) ∧
      (findWord keyword (content.drop position)).map (position + ·.1.length) =
        (tokens.find? (·.text = keyword)).map Token.start ∧
      ∀ token ∈ tokens, token.text = keyword → token.kind = .word := by
  obtain ⟨tokens, isLexing⟩ := exists_isLexing content position
  have found := isLexing.findWord_eq regular
  refine ⟨tokens, fun others => ⟨isLexing.unique, fun same => same ▸ isLexing⟩, ?_, ?_, found, ?_⟩
  · intro whole isWhole between
    exact (isWhole.restrict (Nat.zero_le position) between).unique isLexing
  · rw [findKeyword_eq enough, found]
  · exact isLexing.kind_eq_word regular

/-- Content that holds the word `BI` in a literal string, a hexadecimal string, a comment and a name before it
stands free. -/
def hidingContent : Bytes :=
  Bytes.ascii "(\\)(BI) BI) <BI>/BI %BI\n[BI]"

/-- In that content the scanner passes over everything that holds the word, and finds it where it stands
free. -/
theorem findKeyword_eq_find?_hidingContent :
    (∀ byte ∈ Bytes.ascii "BI", Bytes.isRegular byte = true) ∧ hidingContent.length - 0 < 40 ∧
      ∃ tokens, IsLexing hidingContent 0 tokens ∧
        (tokens.find? (·.text = Bytes.ascii "BI")).map Token.start = some 25 ∧
        findKeyword hidingContent (Bytes.ascii "BI") 40 0 = .ok (some 25) := by
  have regular : ∀ byte ∈ Bytes.ascii "BI", Bytes.isRegular byte = true := by
    decide +kernel
  have enough : hidingContent.length - 0 < 40 := by decide +kernel
  obtain ⟨tokens, isOnly, -, isFound, -⟩ := findKeyword_eq_find? regular enough
  have computed : (findKeyword hidingContent (Bytes.ascii "BI") 40 0).toOption = some (some 25) := by
    decide +kernel
  have atStart : (tokens.find? (·.text = Bytes.ascii "BI")).map Token.start = some 25 := by
    rw [isFound] at computed
    exact Option.some.inj computed
  exact ⟨regular, enough, tokens, (isOnly tokens).2 rfl, atStart, atStart ▸ isFound⟩

end Positions
end Monochrome
