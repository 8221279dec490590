import Monochrome.Object.Basic
import Monochrome.Decimal.Numeral
import Monochrome.Scalar

/-!
# The notation of objects

Objects are read from bytes by a grammar of prioritised choices.  A parser takes bytes and gives
a value with the bytes after it, or nothing.  Inside arrays and dictionaries comments count as
blanks, and two numbers before an `R` are a reference; between the operands of an operator
neither is so.
-/

namespace Monochrome

/-- A reader of the first part of bytes. -/
abbrev Parser (α : Type) :=
  Bytes → Option (α × Bytes)

namespace Parser

/-- Takes the given bytes. -/
def exactly : Bytes → Parser Unit
  | [], bytes => some ((), bytes)
  | _ :: _, [] => none
  | wanted :: more, byte :: rest => if byte = wanted then exactly more rest else none

/-- Takes what the first of two parsers takes, or else the second. -/
def orElse (first second : Parser α) : Parser α := fun bytes =>
  match first bytes with
  | some result => some result
  | none => second bytes

/-- A parser with its value replaced. -/
def as (value : α) (parser : Parser β) : Parser α := fun bytes =>
  (parser bytes).map fun (_, rest) => (value, rest)

/-- A parser with its value changed. -/
def map (change : α → β) (parser : Parser α) : Parser β := fun bytes =>
  (parser bytes).map fun (value, rest) => (change value, rest)

/-- The end of a line. -/
def lineEnd : Parser Unit
  | 13 :: 10 :: rest => some ((), rest)
  | 13 :: rest => some ((), rest)
  | 10 :: rest => some ((), rest)
  | _ => none

/-- A percent sign and the rest of its line, which must end. -/
def comment : Parser Unit
  | 37 :: rest => lineEnd (rest.dropWhile fun byte => byte != 10 && byte != 13)
  | _ => none

mutual

/-- The bytes after blanks and comments. -/
def skip : Bytes → Bytes
  | [] => []
  | byte :: rest =>
    if Bytes.isBlank byte then skip rest
    else if byte = 37 then skipLine (byte :: rest) rest
    else byte :: rest

/-- The bytes after the rest of a comment and what blanks and comments follow it.  A comment
whose line does not end is left where it starts. -/
def skipLine (start : Bytes) : Bytes → Bytes
  | [] => start
  | byte :: rest => if byte = 10 || byte = 13 then skip rest else skipLine start rest

end

/-- The sign before a number: whether it is a minus, and what follows. -/
def sign : Bytes → Bool × Bytes
  | 43 :: rest => (false, rest)
  | 45 :: rest => (true, rest)
  | bytes => (false, bytes)

/-- The number that decimal digits spell. -/
def digitsValue (digits : Bytes) : Nat :=
  digits.foldl (fun value digit => 10 * value + (digit.toNat - 48)) 0

/-- A number with a decimal point, which has a digit on one of its sides. -/
def real : Parser Float32 := fun bytes =>
  let (negative, bytes) := sign bytes
  let (whole, bytes) := bytes.span Bytes.isDigit
  match bytes with
  | 46 :: bytes =>
    let (fraction, rest) := bytes.span Bytes.isDigit
    if whole.isEmpty && fraction.isEmpty then none
    else
      let numeral : Numeral := ⟨negative, digitsValue (whole ++ fraction), -(fraction.length : Int)⟩
      some (Float32Scalar.ofPattern (numeral.nearest .single), rest)
  | _ => none

/-- A number without decimal point, of 64 bits. -/
def integer : Parser Int64 := fun bytes =>
  let (negative, bytes) := sign bytes
  let (digits, rest) := bytes.span Bytes.isDigit
  let value : Int := if negative then -(digitsValue digits : Int) else digitsValue digits
  if digits.isEmpty || value < -(2 ^ 63) || 2 ^ 63 ≤ value then none
  else some (Int64.ofInt value, rest)

/-- A number without sign, below the given limit. -/
def natural (limit : Nat) : Parser Nat := fun bytes =>
  let (digits, rest) := bytes.span Bytes.isDigit
  let value := digitsValue digits
  if digits.isEmpty || limit ≤ value then none else some (value, rest)

/-- A reference: number, generation and the letter `R`. -/
def reference : Parser ObjectId := fun bytes => do
  let (number, bytes) ← natural (2 ^ 32) bytes
  let (generation, bytes) ← natural (2 ^ 16) (skip bytes)
  let (_, rest) ← exactly [82] (skip bytes)
  return (⟨number, generation⟩, rest)

/-- The bytes of a name after its slash.  A number sign with two hexadecimal digits is the byte
that they spell; without them it ends the name. -/
def nameBytes : Bytes → Bytes × Bytes
  | [] => ([], [])
  | byte :: rest =>
    if byte = 35 then
      match rest with
      | high :: low :: rest =>
        match Bytes.hexValue? high, Bytes.hexValue? low with
        | some high, some low =>
          let (name, after) := nameBytes rest
          (((high <<< 4) ||| low) :: name, after)
        | _, _ => ([], byte :: high :: low :: rest)
      | rest => ([], byte :: rest)
    else if Bytes.isRegular byte then
      let (name, after) := nameBytes rest
      (byte :: name, after)
    else ([], byte :: rest)

/-- A name. -/
def name : Parser Bytes
  | 47 :: rest => some (nameBytes rest)
  | _ => none

/-- The nesting of parentheses that a literal string may have. -/
def maxParentheses : Nat := 100

/-- An octal digit. -/
def isOctal (byte : UInt8) : Bool :=
  48 ≤ byte && byte ≤ 55

/-- The letter of an escape and the byte that it stands for. -/
def escapes : List (UInt8 × UInt8) :=
  [(110, 10), (114, 13), (116, 9), (98, 8), (102, 12)]

/-- The bytes of a literal string after its opening parenthesis, inside the given number of
further ones. -/
def literalBytes (depth : Nat) : Parser Bytes
  | [] => none
  | byte :: rest =>
    if byte = 92 then
      match rest with
      | [] => none
      | 13 :: 10 :: rest => literalBytes depth rest
      | 13 :: rest => literalBytes depth rest
      | 10 :: rest => literalBytes depth rest
      | first :: rest =>
        if isOctal first then
          match rest with
          | second :: more =>
            if isOctal second then
              match more with
              | third :: most =>
                if isOctal third then
                  keep (((first - 48) <<< 6) + ((second - 48) <<< 3) + (third - 48))
                    (literalBytes depth most)
                else
                  keep (((first - 48) <<< 3) + (second - 48)) (literalBytes depth (third :: most))
              | [] => none
            else keep (first - 48) (literalBytes depth (second :: more))
          | [] => none
        else keep ((escapes.lookup first).getD first) (literalBytes depth rest)
    else if byte = 40 then
      if depth = maxParentheses then none else keep byte (literalBytes (depth + 1) rest)
    else if byte = 41 then
      if depth = 0 then some ([], rest) else keep byte (literalBytes (depth - 1) rest)
    else keep byte (literalBytes depth rest)
where
  /-- A byte before the value of a parser. -/
  keep (byte : UInt8) (result : Option (Bytes × Bytes)) : Option (Bytes × Bytes) :=
    result.map fun (bytes, rest) => (byte :: bytes, rest)

/-- A string in parentheses. -/
def literalString : Parser Bytes
  | 40 :: rest => literalBytes 0 rest
  | _ => none

/-- The bytes that hexadecimal digits spell; a last single digit is the high half of one. -/
def hexBytes : List UInt8 → Bytes
  | [] => []
  | [high] => [high <<< 4]
  | high :: low :: rest => ((high <<< 4) ||| low) :: hexBytes rest

/-- The hexadecimal digits up to the closing bracket, blanks skipped. -/
def hexDigits : Parser (List UInt8)
  | [] => none
  | byte :: rest =>
    if byte = 62 then some ([], rest)
    else if Bytes.isBlank byte then hexDigits rest
    else
      match Bytes.hexValue? byte, hexDigits rest with
      | some digit, some (digits, rest) => some (digit :: digits, rest)
      | _, _ => none

/-- A string in hexadecimal digits. -/
def hexString : Parser Bytes
  | 60 :: rest => map hexBytes hexDigits rest
  | _ => none

/-- A truth value or the null object, by their first letters. -/
def constant : Parser Object :=
  orElse (as .null (exactly (Bytes.ascii "null"))) <|
    orElse (as (.boolean true) (exactly (Bytes.ascii "true")))
      (as (.boolean false) (exactly (Bytes.ascii "false")))

/-- A number. -/
def number : Parser Object :=
  orElse (map .real real) (map .integer integer)

/-- A name or a string. -/
def text : Parser Object :=
  orElse (map .name name) <|
    orElse (map (.string · .literal) literalString) (map (.string · .hexadecimal) hexString)

/-- Values as many as there are, each with the gap after it; the number bounds how many. -/
def many (gap : Bytes → Bytes) (parser : Parser α) : Nat → Bytes → List α × Bytes
  | 0, bytes => ([], bytes)
  | fuel + 1, bytes =>
    match parser bytes with
    | none => ([], bytes)
    | some (value, rest) =>
      let (values, rest) := many gap parser fuel (gap rest)
      (value :: values, rest)

/-- An array of what a parser reads, of at most the given number of items. -/
def array (limit : Nat) (item : Parser Object) : Parser Object := fun bytes => do
  let (_, bytes) ← exactly [91] bytes
  let (items, bytes) := many skip item limit (skip bytes)
  let (_, rest) ← exactly [93] bytes
  return (.array items, rest)

/-- A name and a value that a parser reads. -/
def entry (item : Parser Object) : Parser (Bytes × Object) := fun bytes => do
  let (key, bytes) ← name bytes
  let (value, rest) ← item (skip bytes)
  return ((key, value), rest)

/-- Entries as many as there are, up to the given number, and what follows them. -/
def entries (limit : Nat) (item : Parser Object) (bytes : Bytes) : Dictionary × Bytes :=
  let (entries, rest) := many skip (entry item) limit bytes
  (Table.ofList entries, rest)

/-- A dictionary of what a parser reads, of at most the given number of entries. -/
def dictionary (limit : Nat) (item : Parser Object) : Parser Object := fun bytes => do
  let (_, bytes) ← exactly [60, 60] bytes
  let (entries, bytes) := entries limit item (skip bytes)
  let (_, rest) ← exactly [62, 62] bytes
  return (.dictionary entries, rest)

/-- An object inside an array or a dictionary, of a text of at most the given length.  Neither
does an object have more parts nor is it nested deeper than its text is long. -/
def nested : Nat → Parser Object
  | 0 => fun _ => none
  | length + 1 =>
    orElse constant <| orElse (map .reference reference) <| orElse number <| orElse text <|
      orElse (array length (nested length)) (dictionary length (nested length))

/-- An operand, of a text of at most the given length. -/
def operand (length : Nat) : Parser Object :=
  orElse constant <| orElse number <| orElse text <|
    orElse (array length (nested length)) (dictionary length (nested length))

end Parser
end Monochrome
