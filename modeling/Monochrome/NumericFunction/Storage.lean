import Monochrome.Calculator.Notation
import Monochrome.Filter.Chain
import Monochrome.NumericFunction.Evaluate

/-!
# Functions in documents

A function is a dictionary, or a stream if it has samples or a program.  The parts of a stitched
function are functions in turn, anywhere in the document; reading a function that contains itself
does not end within any depth.
-/

namespace Monochrome
namespace NumericFunction

/-- The depth to which definitions are read that are nested in each other.  There are fewer objects
in the document, so only a definition that contains itself is nested as deep; it is read for as long
as there is memory. -/
def readingBudget (document : Document) (object : Object) : Nat :=
  2 ^ 62 + document.size + object.size

/-- Reads a table of samples. -/
def readTable (document : Document) (stream : Stream) (range : Option (List Float32)) :
    Outcome (SampleTable Float32) := do
  let entries := stream.entries
  let size := (← document.numbers (← entries.require "Size")).map fun length =>
    Scalar.toNat (Scalar.downTo 1.0 length)
  let bits ← document.integerEntry? entries "BitsPerSample"
  let encode ← document.numbersOr entries "Encode"
    (size.flatMap fun length => [0.0, Scalar.ofNat (length - 1)])
  let decode ← match entries.get? "Decode", range with
    | some decode, _ => document.numbers decode
    | none, some range => pure range
    | none, none => throw (.function .noRange)
  return {
    size := size
    bits := UInt8.ofInt (bits.getD 8).toInt
    encode := encode
    decode := decode
    samples := ← stream.content document }

/-- Reads a calculator program. -/
def readProgram (document : Document) (stream : Stream) : Outcome (Calculator.Program Float) := do
  (Calculator.read (← stream.content document)).mapError .function

/-- The dictionary of a function, and the stream if it is one. -/
def readForm : Object → Outcome (Dictionary × Option Stream)
  | .dictionary entries => .ok (entries, none)
  | .stream entries data => .ok (entries, some ⟨entries, data⟩)
  | _ => .error (.mismatch .function)

/-- Reads a function whose parts are nested to less than the given depth. -/
def readWithin (document : Document) : Nat → Object → Outcome (NumericFunction Float32 Float)
  | 0, _ => .error .endless
  | depth + 1, object => do
    let (entries, stream) ← readForm (← document.resolve object)
    let some type := ← document.integerEntry? entries "FunctionType"
      | throw (.function .noType)
    let domain ← document.numbers (← entries.require "Domain")
    let range ← (entries.get? "Range").mapM document.numbers
    let bounds : Bounds Float32 := ⟨domain, range⟩
    if type = 2 then
      let start ← document.numbersOr entries "C0" [0.0]
      let finish ← document.numbersOr entries "C1" [1.0]
      let exponent ← (← document.resolve (← entries.require "N")).asNumber
      return .exponential bounds start finish exponent
    else if type = 3 then
      match ← document.resolve (← entries.require "Functions") with
      | .array items =>
        let parts ← items.mapM (readWithin document depth)
        let limits ← document.numbers (← entries.require "Bounds")
        let encode ← document.numbers (← entries.require "Encode")
        return .stitched bounds parts limits encode
      | _ => throw (.mismatch .functionArray)
    else
      match stream with
      | some stream =>
        if type = 0 then return .sampled bounds (← readTable document stream range)
        else if type = 4 then return .calculator bounds (← readProgram document stream)
        else throw (.function (.unknownType type))
      | none => throw (.function (.unknownType type))

/-- Reads a function. -/
def read (document : Document) (object : Object) : Outcome (NumericFunction Float32 Float) :=
  readWithin document (readingBudget document object) object

/-- Adds a stream to a document; the result refers to it. -/
def addStream (entries : Dictionary) (data : Bytes) : StateM Document Object :=
  .reference <$> Document.add (Stream.ofData entries data).toObject

/-- The entries that every function has. -/
def boundsEntries (bounds : Bounds Float32) : List (String × Object) :=
  let domain := ("Domain", Object.reals bounds.domain)
  match bounds.range with
  | some range => [domain, ("Range", Object.reals range)]
  | none => [domain]

/-- The dictionary of a function of the given type. -/
def entriesOf (bounds : Bounds Float32) (type : Int64) (more : List (String × Object)) :
    Dictionary :=
  Dictionary.ofEntries (boundsEntries bounds ++ ("FunctionType", .integer type) :: more)

/-- The entries of a table of samples. -/
def tableEntries (table : SampleTable Float32) : List (String × Object) :=
  [("Size", .array (table.size.map fun length => .integer (Int64.ofNat length))),
    ("BitsPerSample", .integer (Int64.ofNat table.bits.toNat)),
    ("Encode", Object.reals table.encode), ("Decode", Object.reals table.decode)]

mutual

/-- The object of a function.  Functions with samples or a program are added to the document and
referred to. -/
def toObject : NumericFunction Float32 Float → StateM Document Object
  | sampled bounds table => addStream (entriesOf bounds 0 (tableEntries table)) table.samples
  | exponential bounds start finish exponent =>
    return .dictionary <| entriesOf bounds 2
      [("C0", Object.reals start), ("C1", Object.reals finish), ("N", .real exponent)]
  | stitched bounds parts limits encode => do
    let parts ← toObjects parts
    return .dictionary <| entriesOf bounds 3
      [("Functions", .array parts), ("Bounds", Object.reals limits),
        ("Encode", Object.reals encode)]
  | calculator bounds program => addStream (entriesOf bounds 4 []) (Calculator.print program)

/-- The objects of functions, in order. -/
def toObjects : List (NumericFunction Float32 Float) → StateM Document (List Object)
  | [] => pure []
  | function :: rest => do
    let object ← toObject function
    let objects ← toObjects rest
    return object :: objects

end

end NumericFunction
end Monochrome
