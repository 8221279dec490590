import Monochrome.Bytes
import Monochrome.Table

/-!
# Objects

The values of a document: numbers, names, strings, arrays, dictionaries, streams, and
references to numbered objects.
-/

namespace Monochrome

/-- The number and the generation of a numbered object. -/
structure ObjectId where
  number : Nat
  generation : Nat
deriving DecidableEq, Repr, Inhabited

/-- The two notations of a string. -/
inductive StringNotation
  /-- Bytes in parentheses. -/
  | literal
  /-- Hexadecimal digits in angle brackets. -/
  | hexadecimal
deriving DecidableEq, Repr

/-- A value of a document. -/
inductive Object
  | null
  | boolean (value : Bool)
  | integer (value : Int64)
  | real (value : Float32)
  | name (bytes : Bytes)
  | string (bytes : Bytes) (written : StringNotation)
  | array (items : List Object)
  | dictionary (entries : Table Bytes Object)
  | stream (entries : Table Bytes Object) (data : Bytes)
  | reference (target : ObjectId)
deriving Inhabited

/-- A dictionary from names to objects. -/
abbrev Dictionary :=
  Table Bytes Object

/-- Data with the dictionary that describes it. -/
structure Stream where
  entries : Dictionary
  data : Bytes
deriving Inhabited

namespace Dictionary

/-- The value of a key that is given as text. -/
def get? (dictionary : Dictionary) (key : String) : Option Object :=
  dictionary.find? (Bytes.ascii key)

/-- The dictionary with a value under a key that is given as text. -/
def set (dictionary : Dictionary) (key : String) (value : Object) : Dictionary :=
  dictionary.insert (Bytes.ascii key) value

/-- The dictionary without a key that is given as text. -/
def remove (dictionary : Dictionary) (key : String) : Dictionary :=
  dictionary.erase (Bytes.ascii key)

/-- The dictionary of a list of entries. -/
def ofEntries (entries : List (String × Object)) : Dictionary :=
  Table.ofList (entries.map fun (key, value) => (Bytes.ascii key, value))

end Dictionary

namespace Stream

/-- A stream of data; its dictionary tells the length of the data. -/
def ofData (entries : Dictionary) (data : Bytes) : Stream :=
  ⟨entries.set "Length" (.integer (Int64.ofNat data.length)), data⟩

/-- The stream as an object. -/
def toObject (stream : Stream) : Object :=
  .stream stream.entries stream.data

end Stream

namespace Object

/-- A name given as text. -/
def named (text : String) : Object :=
  .name (Bytes.ascii text)

/-- An array of real numbers. -/
def reals (values : List Float32) : Object :=
  .array (values.map .real)

mutual

/-- The number of objects that an object is made of. -/
def size : Object → Nat
  | .array items => sizeOfItems items + 1
  | .dictionary ⟨entries⟩ => sizeOfEntries entries + 1
  | .stream ⟨entries⟩ _ => sizeOfEntries entries + 1
  | _ => 1

/-- The number of objects in a list. -/
def sizeOfItems : List Object → Nat
  | [] => 0
  | item :: rest => item.size + sizeOfItems rest

/-- The number of objects in the entries of a dictionary. -/
def sizeOfEntries : List (Bytes × Object) → Nat
  | [] => 0
  | (_, value) :: rest => value.size + sizeOfEntries rest

end

end Object
end Monochrome
