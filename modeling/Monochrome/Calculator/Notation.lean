import Monochrome.Calculator.Syntax
import Monochrome.Decimal.Numeral
import Monochrome.Fault
import Monochrome.Scalar
import Monochrome.Text.Blank
import Monochrome.Text.Utf8

/-!
# The notation of calculator programs

A program is written in braces, its instructions separated by blanks.  What follows the closing
brace is not read.  A real number is written so that it reads back, and so that it cannot be
taken for an integer.
-/

namespace Monochrome
namespace Calculator

/-- A piece of the text of a program. -/
inductive Token
  | opening
  | closing
  | word (characters : List Char)
deriving DecidableEq, Repr

namespace Token

/-- The word of the characters read so far, in reverse, before further tokens. -/
def finish (word : List Char) (tokens : List Token) : List Token :=
  if word.isEmpty then tokens else .word word.reverse :: tokens

/-- The tokens of a text after the characters of a word, in reverse. -/
def scan (word : List Char) : List Char → List Token
  | [] => finish word []
  | character :: rest =>
    if character = '\x7b' then finish word (opening :: scan [] rest)
    else if character = '\x7d' then finish word (closing :: scan [] rest)
    else if Text.isBlank character then finish word (scan [] rest)
    else scan (character :: word) rest

end Token

/-- The sign before a number: whether it is a minus, and what follows. -/
def splitSign : List Char → Bool × List Char
  | '+' :: rest => (false, rest)
  | '-' :: rest => (true, rest)
  | text => (false, text)

/-- The integer of 64 bits that a word spells. -/
def readInteger? (word : List Char) : Option Int64 :=
  let (negative, digits) := splitSign word
  let value : Int := if negative then -(Numeral.ofDigits digits : Int) else Numeral.ofDigits digits
  if digits.isEmpty || !digits.all Char.isDigit || value < -(2 ^ 63) || 2 ^ 63 ≤ value then none
  else some (Int64.ofInt value)

/-- The exponent after a number: a letter, a sign and digits, or nothing. -/
def readExponent? : List Char → Option Int
  | [] => some 0
  | letter :: rest =>
    let (negative, digits) := splitSign rest
    if letter.toLower != 'e' || digits.isEmpty || !digits.all Char.isDigit then none
    else some (if negative then -(Numeral.ofDigits digits : Int) else Numeral.ofDigits digits)

/-- The decimal numeral that a word spells, given its sign. -/
def readNumeral? (negative : Bool) (text : List Char) : Option Numeral :=
  let (whole, rest) := text.span Char.isDigit
  let (fraction, rest) :=
    match rest with
    | '.' :: rest => rest.span Char.isDigit
    | rest => ([], rest)
  if whole.isEmpty && fraction.isEmpty then none
  else
    (readExponent? rest).map fun exponent =>
      ⟨negative, Numeral.ofDigits (whole ++ fraction), exponent - fraction.length⟩

/-- The real number that a word spells; infinity and the value that is no number have names,
whose case does not matter. -/
def readReal? (word : List Char) : Option Float :=
  let (negative, text) := splitSign word
  let lower := text.map Char.toLower
  if lower = ['i', 'n', 'f'] || lower = ['i', 'n', 'f', 'i', 'n', 'i', 't', 'y'] then
    some (FloatScalar.ofPattern (Format.double.withSign negative Format.double.infinity))
  else if lower = ['n', 'a', 'n'] then
    some (FloatScalar.ofPattern Format.double.quietNaN)
  else
    (readNumeral? negative text).map fun numeral =>
      FloatScalar.ofPattern (numeral.nearest .double)

/-- The instruction that a word spells: an integer, a real number or an operator. -/
def readWord (word : List Char) : Except FunctionFault (Instruction Float) :=
  match readInteger? word with
  | some value => .ok (.integer value)
  | none =>
    match readReal? word with
    | some value => .ok (.real value)
    | none =>
      match Operator.ofKeyword? (String.ofList word) with
      | some operator => .ok (.operator operator)
      | none => .error (.unknownOperator (String.ofList word))

/-- Reads instructions up to the brace that closes the program.  The instructions read so far
are kept in reverse, those of the innermost open procedure first. -/
def readFrom (current : Program Float) (enclosing : List (Program Float)) :
    List Token → Except FunctionFault (Program Float)
  | [] => .error .unterminated
  | .opening :: tokens => readFrom [] (current :: enclosing) tokens
  | .closing :: tokens =>
    match enclosing with
    | [] => .ok current.reverse
    | outer :: enclosing => readFrom (.procedure current.reverse :: outer) enclosing tokens
  | .word characters :: tokens =>
    match readWord characters with
    | .ok instruction => readFrom (instruction :: current) enclosing tokens
    | .error fault => .error fault

/-- The program that bytes spell. -/
def read (bytes : Bytes) : Except FunctionFault (Program Float) :=
  match Token.scan [] (Text.decode bytes) with
  | .opening :: tokens => readFrom [] [] tokens
  | _ => .error .noProgram

/-- The digits of an integral number, with one zero after the point. -/
def printIntegral (negative : Bool) (mantissa : Nat) (exponent : Int) : List Char :=
  let magnitude := Reading.roundMagnitude .towardZero negative mantissa exponent
  let text := Numeral.digits magnitude ++ ['.', '0']
  if negative then '-' :: text else text

/-- A real number as it is written. -/
def printReal (value : Float) : List Char :=
  match FloatScalar.read value with
  | .finite negative mantissa exponent =>
    if (Reading.finite negative mantissa exponent).isInteger then
      printIntegral negative mantissa exponent
    else Numeral.write .double (.finite negative mantissa exponent)
  | other => Numeral.write .double other

mutual

/-- An instruction as it is written. -/
def Instruction.print : Instruction Float → List Char
  | .integer value => (toString value.toInt).toList
  | .real value => printReal value
  | .operator command => command.keyword.toList
  | .procedure body => '\x7b' :: Instruction.printAll body ++ [' ', '\x7d']

/-- Instructions as they are written, each after a blank. -/
def Instruction.printAll : List (Instruction Float) → List Char
  | [] => []
  | instruction :: rest => ' ' :: instruction.print ++ Instruction.printAll rest

end

/-- A program as it is written. -/
def print (program : Program Float) : Bytes :=
  ('\x7b' :: Instruction.printAll program ++ [' ', '\x7d']).map fun character =>
    character.toNat.toUInt8

end Calculator
end Monochrome
