import Monochrome.Options

/-!
# Reading options

Options are given as a record, in which missing fields have their defaults and unknown ones are
ignored, or as a list of the fields in their order, of which the last ones can be missing.
-/

namespace Monochrome

/-- A value in which options are given. -/
inductive Setting
  | null
  | flag (value : Bool)
  /-- A number that is written without fraction. -/
  | whole (value : Int)
  /-- A number that is written with a fraction. -/
  | fraction (value : Float)
  | text (value : String)
  | list (items : List Setting)
  | record (fields : List (String × Setting))
deriving Inhabited

namespace Setting

/-- A truth value. -/
def flag? : Setting → Option Bool
  | flag value => some value
  | _ => none

/-- A natural number up to a limit; it must be written without fraction. -/
def natural? (limit : Nat) : Setting → Option Nat
  | whole value => if 0 ≤ value ∧ value ≤ limit then some value.toNat else none
  | _ => none

/-- A number of either kind.  One without fraction that does not fit 64 bits counts as one in
double precision. -/
def number? : Setting → Option Float32
  | whole value =>
    if -(2 ^ 63) ≤ value ∧ value < 2 ^ 64 then some (Scalar.ofInt value)
    else some (Precision.narrow (Scalar.ofInt value : Float))
  | fraction value => some (Precision.narrow value)
  | _ => none

end Setting

namespace Options

/-- The names of the fields, in order. -/
def fieldNames : List String :=
  ["ignoreGrayFilters", "colorTolerance", "jpegQuality", "maxNestingDepth", "compressStreams"]

/-- The value of a field if it is there, or else its default. -/
def fieldOr (settings : List (String × Setting)) (name : String) (read : Setting → Option α)
    (default : α) : Option α :=
  match settings.lookup name with
  | some setting => read setting
  | none => some default

/-- The options with the given fields. -/
def ofFields? (settings : List (String × Setting)) : Option Options := do
  let usual : Options := {}
  let ignoreGrayFilters ←
    fieldOr settings "ignoreGrayFilters" Setting.flag? usual.ignoreGrayFilters
  let colorTolerance ← fieldOr settings "colorTolerance" Setting.number? usual.colorTolerance
  let jpegQuality ← fieldOr settings "jpegQuality" (Setting.natural? 255) usual.jpegQuality
  let maxNestingDepth ←
    fieldOr settings "maxNestingDepth" (Setting.natural? (2 ^ 64 - 1)) usual.maxNestingDepth
  let compressStreams ← fieldOr settings "compressStreams" Setting.flag? usual.compressStreams
  return ⟨ignoreGrayFilters, colorTolerance, jpegQuality, maxNestingDepth, compressStreams⟩

/-- The options that a value gives. -/
def read? : Setting → Option Options
  | .record fields => ofFields? fields
  | .list items =>
    if items.length ≤ fieldNames.length then ofFields? (fieldNames.zip items) else none
  | _ => none

end Options
end Monochrome
