/-!
# Sets of names

Names in order, each once.
-/

namespace Monochrome

/-- A set of names, in order. -/
structure Names where
  toList : List String := []
deriving Inhabited, DecidableEq

namespace Names

/-- Whether a name is in a set. -/
def contains (names : Names) (name : String) : Bool :=
  names.toList.contains name

/-- An ordered list with a name at its place. -/
def insertIn (name : String) : List String → List String
  | [] => [name]
  | first :: rest =>
    if name = first then first :: rest
    else if name < first then name :: first :: rest
    else first :: insertIn name rest

/-- The set with a name. -/
def insert (names : Names) (name : String) : Names :=
  ⟨insertIn name names.toList⟩

/-- The names that are in one of two sets. -/
def union (names others : Names) : Names :=
  others.toList.foldl insert names

end Names
end Monochrome
