/-!
# Tables in insertion order

A table is a list of keys with values.  Replacing the value of a key keeps its place, a new key
comes last, and erasing a key moves the last entry into the gap.  `find?` is the view through
which the operations are described.
-/

namespace Monochrome

/-- A table from keys to values. -/
structure Table (κ : Type) (α : Type u) where
  entries : List (κ × α)
deriving Repr

namespace Table

variable {κ : Type} [DecidableEq κ] {α : Type u}

/-- The table without entries. -/
def empty : Table κ α :=
  ⟨[]⟩

instance : Inhabited (Table κ α) :=
  ⟨empty⟩

/-- The value of the first entry with the given key. -/
def findIn (key : κ) : List (κ × α) → Option α
  | [] => none
  | (other, value) :: rest => if other = key then some value else findIn key rest

/-- The value of a key. -/
def find? (table : Table κ α) (key : κ) : Option α :=
  findIn key table.entries

/-- Whether a key has a value. -/
def contains (table : Table κ α) (key : κ) : Bool :=
  (table.find? key).isSome

/-- The entries with the value of a key replaced, or with a new last entry. -/
def insertIn (key : κ) (value : α) : List (κ × α) → List (κ × α)
  | [] => [(key, value)]
  | (other, old) :: rest =>
    if other = key then (other, value) :: rest else (other, old) :: insertIn key value rest

/-- The table in which a key has the given value. -/
def insert (table : Table κ α) (key : κ) (value : α) : Table κ α :=
  ⟨insertIn key value table.entries⟩

/-- The entries with the entry of a key replaced by another one. -/
def replaceIn (key : κ) (entry : κ × α) : List (κ × α) → List (κ × α)
  | [] => []
  | (other, old) :: rest =>
    if other = key then entry :: rest else (other, old) :: replaceIn key entry rest

/-- The table without a key; the last entry takes its place. -/
def erase (table : Table κ α) (key : κ) : Table κ α :=
  if table.contains key then
    match table.entries.getLast? with
    | none => table
    | some last =>
      if last.1 = key then ⟨table.entries.dropLast⟩
      else ⟨replaceIn key last table.entries.dropLast⟩
  else table

/-- The table of a list of entries; a repeated key keeps its first place and takes its last
value. -/
def ofList (entries : List (κ × α)) : Table κ α :=
  entries.foldl (fun table (key, value) => table.insert key value) empty

/-- The number of entries. -/
def size (table : Table κ α) : Nat :=
  table.entries.length

@[simp] theorem find?_empty (key : κ) : (empty : Table κ α).find? key = none :=
  rfl

/-- A table without entries is one in which no key has a value. -/
theorem size_eq_zero {table : Table κ α} :
    table.size = 0 ↔ ∀ key, table.find? key = none := by
  obtain ⟨_ | ⟨⟨key, value⟩, rest⟩⟩ := table
  · exact iff_of_true rfl fun _ => rfl
  · refine iff_of_false (by simp [size]) fun absent => ?_
    simpa [find?, findIn] using absent key

/-- Looking up in entries with one inserted: the new value under its key, else as before. -/
theorem findIn_insertIn (key other : κ) (value : α) (entries : List (κ × α)) :
    findIn other (insertIn key value entries) =
      if key = other then some value else findIn other entries := by
  induction entries with
  | nil => simp [insertIn, findIn]
  | cons entry rest inductionHypothesis =>
    by_cases atKey : entry.1 = key <;> by_cases atOther : entry.1 = other <;>
      by_cases same : key = other <;> simp_all [insertIn, findIn]

/-- An inserted value is found under its key, and the other keys are as before. -/
@[simp] theorem find?_insert (table : Table κ α) (key other : κ) (value : α) :
    (table.insert key value).find? other =
      if key = other then some value else table.find? other :=
  findIn_insertIn key other value table.entries

/-- Entries stay as they are when a key is given the value that it has. -/
theorem insertIn_self {key : κ} {value : α} {entries : List (κ × α)}
    (found : findIn key entries = some value) : insertIn key value entries = entries := by
  induction entries with
  | nil => simp [findIn] at found
  | cons entry rest inductionHypothesis =>
    obtain ⟨other, old⟩ := entry
    unfold findIn at found
    unfold insertIn
    split at found
    · rw [if_pos ‹_›, Option.some.inj found]
    · rw [if_neg ‹_›, inductionHypothesis found]

/-- A table stays as it is when a key is given the value that it has. -/
theorem insert_self {table : Table κ α} {key : κ} {value : α}
    (found : table.find? key = some value) : table.insert key value = table := by
  rw [insert, insertIn_self found]

end Table
end Monochrome
