import Monochrome.Bytes

/-!
# Lexemes of content

On its surface content is a sequence of strings, hexadecimal strings, comments, names, words,
single blanks and delimiters, of which only words can be keywords.  `Lexeme.split` takes the
first of them; `Lexeme.findWord` looks for a keyword.  Whatever a lexeme contains is passed
over as a whole, so a string or a comment never holds a keyword.
-/

namespace Monochrome

/-- The kinds of lexemes. -/
inductive Lexeme
  /-- Bytes in balanced parentheses, a backslash hiding the next byte. -/
  | literalString
  /-- Bytes in angle brackets. -/
  | hexString
  /-- A percent sign and the rest of the line. -/
  | comment
  /-- A slash and the regular bytes after it. -/
  | name
  /-- A blank or a delimiter. -/
  | mark
  /-- A maximal run of regular bytes. -/
  | word
deriving DecidableEq, Repr

namespace Lexeme

/-- A literal string and what follows it, with the given number of parentheses open before
the bytes.  A string that is never closed reaches to the end. -/
def splitString : Nat → Bytes → Bytes × Bytes
  | _, [] => ([], [])
  | depth, byte :: rest =>
    if byte = 92 then
      match rest with
      | [] => ([byte], [])
      | hidden :: rest =>
        let (string, after) := splitString depth rest
        (byte :: hidden :: string, after)
    else if byte = 41 && depth ≤ 1 then ([byte], rest)
    else
      let depth := if byte = 40 then depth + 1 else if byte = 41 then depth - 1 else depth
      let (string, after) := splitString depth rest
      (byte :: string, after)

/-- The bytes up to and with the first that satisfies a condition, and the bytes after it. -/
def splitThrough (stop : UInt8 → Bool) : Bytes → Bytes × Bytes
  | [] => ([], [])
  | byte :: rest =>
    if stop byte then ([byte], rest)
    else
      let (before, after) := splitThrough stop rest
      (byte :: before, after)

/-- The bytes before the first that does not satisfy a condition, and the bytes from it on. -/
def splitWhile (keep : UInt8 → Bool) (bytes : Bytes) : Bytes × Bytes :=
  (bytes.takeWhile keep, bytes.dropWhile keep)

/-- A byte that does not end a line. -/
def isInLine (byte : UInt8) : Bool :=
  byte != 10 && byte != 13

/-- The first lexeme of content that starts with the given byte: its kind, the bytes of it
after the first, and what follows. -/
def split (first : UInt8) (rest : Bytes) : Lexeme × Bytes × Bytes :=
  if first = 40 then (literalString, splitString 1 rest)
  else if first = 37 then (comment, splitWhile isInLine rest)
  else if first = 60 then
    match rest with
    | 60 :: rest => (mark, [60], rest)
    | rest => (hexString, splitThrough (· == 62) rest)
  else if first = 47 then (name, splitWhile Bytes.isRegular rest)
  else if Bytes.isRegular first then (word, splitWhile Bytes.isRegular rest)
  else (mark, [], rest)

/-- A literal string and what follows it are the bytes that it was taken from. -/
theorem splitString_append (depth : Nat) (bytes : Bytes) :
    (splitString depth bytes).1 ++ (splitString depth bytes).2 = bytes := by
  fun_induction splitString depth bytes <;> simp_all

/-- The bytes through the first match and those after it are all the bytes. -/
theorem splitThrough_append (stop : UInt8 → Bool) (bytes : Bytes) :
    (splitThrough stop bytes).1 ++ (splitThrough stop bytes).2 = bytes := by
  fun_induction splitThrough stop bytes <;> simp_all

/-- The bytes before the first mismatch and those from it on are all the bytes. -/
theorem splitWhile_append (keep : UInt8 → Bool) (bytes : Bytes) :
    (splitWhile keep bytes).1 ++ (splitWhile keep bytes).2 = bytes :=
  List.takeWhile_append_dropWhile

/-- A lexeme and what follows it are the content that it was taken from. -/
theorem split_append (first : UInt8) (rest : Bytes) :
    (split first rest).2.1 ++ (split first rest).2.2 = rest := by
  fun_cases split first rest <;>
    simp_all [splitString_append, splitThrough_append, splitWhile_append]

/-- What follows a lexeme is not longer than the content after its first byte. -/
theorem length_split_le (first : UInt8) (rest : Bytes) :
    (split first rest).2.2.length ≤ rest.length := by
  have lengths := congrArg List.length (split_append first rest)
  simp only [List.length_append] at lengths
  omega

/-- What stands before and after the first word that equals a keyword. -/
def findWord (keyword : Bytes) (content : Bytes) : Option (Bytes × Bytes) :=
  match content with
  | [] => none
  | first :: rest =>
    let lexeme := split first rest
    if lexeme.1 = word && first :: lexeme.2.1 = keyword then some ([], lexeme.2.2)
    else
      (findWord keyword lexeme.2.2).map fun (before, after) =>
        (first :: (lexeme.2.1 ++ before), after)
termination_by content.length
decreasing_by
  have := length_split_le first rest
  simp only [List.length_cons]
  omega

/-- What stands before a keyword, the keyword and what follows are the content. -/
theorem append_of_findWord {keyword content before after : Bytes}
    (found : findWord keyword content = some (before, after)) :
    before ++ keyword ++ after = content := by
  fun_induction findWord keyword content generalizing before with
  | case1 => simp at found
  | case2 first rest lexeme =>
    rename_i atWord
    simp only [Option.some.injEq, Prod.mk.injEq] at found
    obtain ⟨rfl, rfl⟩ := found
    simp only [Bool.and_eq_true, decide_eq_true_eq] at atWord
    rw [← atWord.2]
    simpa using split_append first rest
  | case3 first rest lexeme notWord =>
    rename_i inductionHypothesis
    obtain ⟨⟨before', after'⟩, later, same⟩ := Option.map_eq_some_iff.1 found
    simp only [Prod.mk.injEq] at same
    obtain ⟨rfl, rfl⟩ := same
    have whole := inductionHypothesis later
    have parts := split_append first rest
    simp only [List.cons_append, List.append_assoc] at whole ⊢
    rw [whole, parts]

/-- Whether content starts where a token has ended. -/
def endsToken : Bytes → Bool
  | [] => true
  | byte :: _ => !Bytes.isRegular byte

end Lexeme
end Monochrome
