import Monochrome.Fault
import Monochrome.Object.Document
import Monochrome.Scalar
import Monochrome.Text.Utf8

/-!
# Reading objects

Any entry of a document may stand behind a chain of references.  `Document.resolve` follows a
short chain to the value at its end; `Document.fetch` starts from a number and allows a longer
one.  The readers below turn objects into numbers, names and lists, or tell what was expected
instead.
-/

namespace Monochrome

/-- The result of a step that can fail. -/
abbrev Outcome (α : Type) :=
  Except Fault α

namespace Object

/-- The name of the type of an object, as messages use it. -/
def typeName : Object → String
  | .null => "Null"
  | .boolean _ => "Boolean"
  | .integer _ => "Integer"
  | .real _ => "Real"
  | .name _ => "Name"
  | .string _ _ => "String"
  | .array _ => "Array"
  | .dictionary _ => "Dictionary"
  | .stream _ _ => "Stream"
  | .reference _ => "Reference"

/-- An integer, or a real number without fraction. -/
def integer? : Object → Option Int64
  | .integer value => some value
  | .real value => if Scalar.isInteger value then some (Scalar.toInt64 value) else none
  | _ => none

/-- A number of either kind, in single precision. -/
def number? : Object → Option Float32
  | .integer value => some (Scalar.ofInt value.toInt)
  | .real value => some value
  | _ => none

/-- The text of a name. -/
def text? : Object → Option String
  | .name bytes => some (Text.ofBytes bytes)
  | _ => none

/-- The text of an object that must be a name. -/
def asText (object : Object) : Outcome String :=
  match object.text? with
  | some text => .ok text
  | none => .error (.mismatch .name)

/-- An object that must be a number. -/
def asNumber (object : Object) : Outcome Float32 :=
  match object.number? with
  | some number => .ok number
  | none => .error (.mismatch .number)

/-- An object that must be a dictionary. -/
def asDictionary : Object → Outcome Dictionary
  | .dictionary entries => .ok entries
  | other => .error (.lookup (.wrongType "Dictionary" other.typeName))

/-- An object that must be a stream. -/
def asStream : Object → Outcome Stream
  | .stream entries data => .ok ⟨entries, data⟩
  | other => .error (.lookup (.wrongType "Stream" other.typeName))

/-- The dictionary of a dictionary or a stream. -/
def entries? : Object → Option Dictionary
  | .dictionary entries => some entries
  | .stream entries _ => some entries
  | _ => none

/-- Whether an object is the truth value `true`. -/
def isTrue : Option Object → Bool
  | some (.boolean true) => true
  | _ => false

end Object

namespace Dictionary

/-- The value of a key that must be present. -/
def require (dictionary : Dictionary) (key : String) : Outcome Object :=
  match dictionary.get? key with
  | some value => .ok value
  | none => .error (.lookup (.noKey key))

end Dictionary

namespace Document

/-- The number of objects that `resolve` looks at, the starting one included. -/
def chainLimit : Nat := 32

/-- Follows at most the given number of steps of a chain of references.  The result is the
value at its end and the number under which that value is stored, if any. -/
def followChain (document : Document) : Nat → Option ObjectId → Object →
    Outcome (Option ObjectId × Object)
  | 0, _, _ => .error (.mismatch .directObject)
  | steps + 1, location, object =>
    match object with
    | .reference target =>
      match document.find? target with
      | some next => followChain document steps (some target) next
      | none => .error (.lookup (.noObject target))
    | value => .ok (location, value)

/-- The value that an object stands for, with the number under which it is stored. -/
def resolveWithId (document : Document) (object : Object) :
    Outcome (Option ObjectId × Object) :=
  document.followChain chainLimit none object

/-- The value that an object stands for. -/
def resolve (document : Document) (object : Object) : Outcome Object :=
  return (← document.resolveWithId object).2

/-- The value of a key of a dictionary, if it is there. -/
def entry? (document : Document) (dictionary : Dictionary) (key : String) :
    Outcome (Option Object) :=
  match dictionary.get? key with
  | some value => some <$> document.resolve value
  | none => .ok none

/-- The value of the first of two keys that is there. -/
def eitherEntry? (document : Document) (dictionary : Dictionary) (first second : String) :
    Outcome (Option Object) := do
  match ← document.entry? dictionary first with
  | some value => return some value
  | none => document.entry? dictionary second

/-- Follows a chain of references that starts at a stored object. -/
def fetchChain (document : Document) : Nat → ObjectId → Object → Outcome (ObjectId × Object)
  | steps, location, object =>
    match object with
    | .reference target =>
      match document.find? target, steps with
      | none, _ => .error (.lookup (.noObject target))
      | some _, 0 => .error (.lookup .referenceChain)
      | some next, steps + 1 => fetchChain document steps target next
    | value => .ok (location, value)

/-- The object under a number, after at most the given number of further references, and the
number under which it is stored. -/
def fetchWithin (document : Document) (steps : Nat) (target : ObjectId) :
    Outcome (ObjectId × Object) :=
  match document.find? target with
  | some object => document.fetchChain steps target object
  | none => .error (.lookup (.noObject target))

/-- The number of references that are followed from an object. -/
def referenceLimit : Nat := 128

/-- The object under a number, after further references, and the number under which it is
stored. -/
def fetchWithId (document : Document) (target : ObjectId) : Outcome (ObjectId × Object) :=
  document.fetchWithin referenceLimit target

/-- The object under a number. -/
def fetch (document : Document) (target : ObjectId) : Outcome Object :=
  return (← document.fetchWithId target).2

/-- The dictionary under a number. -/
def fetchDictionary (document : Document) (target : ObjectId) : Outcome Dictionary := do
  (← document.fetch target).asDictionary

/-- The number under which the dictionary reached from a number is stored, and the
dictionary. -/
def fetchStoredDictionary (document : Document) (target : ObjectId) :
    Outcome (ObjectId × Dictionary) := do
  let (location, object) ← document.fetchWithId target
  return (location, ← object.asDictionary)

/-- The numbers of an array of numbers. -/
def numbers (document : Document) (object : Object) : Outcome (List Float32) := do
  match ← document.resolve object with
  | .array items => items.mapM fun item => do (← document.resolve item).asNumber
  | _ => .error (.mismatch .numberArray)

/-- The numbers under a key, or a default if the key is missing. -/
def numbersOr (document : Document) (dictionary : Dictionary) (key : String)
    (default : List Float32) : Outcome (List Float32) :=
  match dictionary.get? key with
  | some value => document.numbers value
  | none => .ok default

/-- The integer under a key, if there is one. -/
def integerEntry? (document : Document) (dictionary : Dictionary) (key : String) :
    Outcome (Option Int64) :=
  return (← document.entry? dictionary key).bind Object.integer?

end Document
end Monochrome
