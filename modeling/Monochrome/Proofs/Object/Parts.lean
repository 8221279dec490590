import Mathlib.Data.List.Basic
import Monochrome.Proofs.Object.Resolving

/-!
# The objects that an object is made of

A document holds finitely many objects, those inside others included.  Whatever is reached from one
of them, by its elements, its entries and its references, is one of them again.
-/

namespace Monochrome

namespace Table

variable {κ α : Type} [DecidableEq κ] {key : κ} {value : α} {entry : κ × α} {table : Table κ α}

/-- The value that is found under a key stands in the entries. -/
theorem mem_of_findIn {entries : List (κ × α)} (found : findIn key entries = some value) :
    (key, value) ∈ entries := by
  induction entries with
  | nil => simp [findIn] at found
  | cons entry rest inductionHypothesis =>
      simp only [findIn] at found
      split at found
      · rename_i atKey
        obtain rfl := Option.some.inj found
        exact List.mem_cons.2 (Or.inl (by rw [← atKey]))
      · exact List.mem_cons_of_mem _ (inductionHypothesis found)

/-- The value that is found under a key is one of the values. -/
theorem mem_values_of_findIn {entries : List (κ × α)} (found : findIn key entries = some value) :
    value ∈ entries.map Prod.snd :=
  List.mem_map_of_mem (mem_of_findIn found)

/-- The entries after an insertion are the new one and old ones. -/
theorem mem_insert (isEntry : entry ∈ (table.insert key value).entries) :
    entry = (key, value) ∨ entry ∈ table.entries := by
  obtain ⟨entries⟩ := table
  change entry ∈ insertIn key value entries at isEntry
  induction entries with
  | nil => exact Or.inl (List.mem_singleton.1 isEntry)
  | cons first rest inductionHypothesis =>
      obtain ⟨other, old⟩ := first
      unfold insertIn at isEntry
      split at isEntry
      · rename_i atKey
        rcases List.mem_cons.1 isEntry with isNew | isOld
        · exact Or.inl (isNew.trans (by rw [atKey]))
        · exact Or.inr (List.mem_cons_of_mem _ isOld)
      · rcases List.mem_cons.1 isEntry with isFirst | isLater
        · exact Or.inr (isFirst ▸ List.mem_cons_self)
        · exact (inductionHypothesis isLater).imp_right (List.mem_cons_of_mem _)

/-- The entries after one was replaced are the new one and old ones. -/
theorem mem_replaceIn {other : κ × α} {entries : List (κ × α)}
    (isEntry : entry ∈ replaceIn key other entries) : entry = other ∨ entry ∈ entries := by
  induction entries with
  | nil => cases isEntry
  | cons first rest inductionHypothesis =>
      unfold replaceIn at isEntry
      split at isEntry
      · exact (List.mem_cons.1 isEntry).imp_right (List.mem_cons_of_mem _)
      · rcases List.mem_cons.1 isEntry with isFirst | isLater
        · exact Or.inr (isFirst ▸ List.mem_cons_self)
        · exact (inductionHypothesis isLater).imp_right (List.mem_cons_of_mem _)

/-- The entries after a key was erased are old ones. -/
theorem mem_erase (isEntry : entry ∈ (table.erase key).entries) : entry ∈ table.entries := by
  unfold erase at isEntry
  split at isEntry
  · split at isEntry
    · exact isEntry
    · rename_i last isLast
      split at isEntry
      · exact List.dropLast_subset _ isEntry
      · rcases mem_replaceIn isEntry with rfl | isOld
        · exact List.mem_of_getLast? isLast
        · exact List.dropLast_subset _ isOld
  · exact isEntry

end Table

namespace Object

mutual

/-- The objects that an object is made of, itself included. -/
def parts : Object → List Object
  | .array items => .array items :: partsOfItems items
  | .dictionary ⟨entries⟩ => .dictionary ⟨entries⟩ :: partsOfEntries entries
  | .stream ⟨entries⟩ data => .stream ⟨entries⟩ data :: partsOfEntries entries
  | other => [other]

/-- The objects that the objects of a list are made of. -/
def partsOfItems : List Object → List Object
  | [] => []
  | item :: rest => item.parts ++ partsOfItems rest

/-- The objects that the entries of a dictionary are made of. -/
def partsOfEntries : List (Bytes × Object) → List Object
  | [] => []
  | (_, value) :: rest => value.parts ++ partsOfEntries rest

end

mutual

/-- An object is made of as many objects as its size tells. -/
theorem length_parts : ∀ object : Object, object.parts.length = object.size
  | .array items => by simp [parts, size, length_partsOfItems items]
  | .dictionary ⟨entries⟩ => by simp [parts, size, length_partsOfEntries entries]
  | .stream ⟨entries⟩ _ => by simp [parts, size, length_partsOfEntries entries]
  | .null | .boolean _ | .integer _ | .real _ | .name _ | .string _ _ | .reference _ => rfl

/-- The objects of a list are made of as many objects as their sizes tell. -/
theorem length_partsOfItems : ∀ items, (partsOfItems items).length = sizeOfItems items
  | [] => rfl
  | item :: rest => by
      simp [partsOfItems, sizeOfItems, length_parts item, length_partsOfItems rest]

/-- The entries of a dictionary are made of as many objects as their sizes tell. -/
theorem length_partsOfEntries : ∀ entries, (partsOfEntries entries).length = sizeOfEntries entries
  | [] => rfl
  | (_, value) :: rest => by
      simp [partsOfEntries, sizeOfEntries, length_parts value, length_partsOfEntries rest]

end

/-- An object is one of those that it is made of. -/
theorem mem_parts_self (object : Object) : object ∈ object.parts := by
  cases object <;> simp [parts]

mutual

/-- What a part is made of is part of the whole. -/
theorem parts_subset : ∀ {object inner : Object}, inner ∈ object.parts → inner.parts ⊆ object.parts
  | .array items, inner, isPart => by
      rcases List.mem_cons.mp isPart with rfl | isPart
      · exact List.Subset.refl _
      · exact List.subset_cons_of_subset _ (partsOfItems_subset isPart)
  | .dictionary ⟨entries⟩, inner, isPart => by
      rcases List.mem_cons.mp isPart with rfl | isPart
      · exact List.Subset.refl _
      · exact List.subset_cons_of_subset _ (partsOfEntries_subset isPart)
  | .stream ⟨entries⟩ _, inner, isPart => by
      rcases List.mem_cons.mp isPart with rfl | isPart
      · exact List.Subset.refl _
      · exact List.subset_cons_of_subset _ (partsOfEntries_subset isPart)
  | .null, inner, isPart | .boolean _, inner, isPart | .integer _, inner, isPart
  | .real _, inner, isPart | .name _, inner, isPart | .string _ _, inner, isPart
  | .reference _, inner, isPart => by
      obtain rfl := List.mem_singleton.mp isPart
      exact List.Subset.refl _

/-- What a part of a list is made of is part of the list. -/
theorem partsOfItems_subset : ∀ {items : List Object} {inner : Object},
    inner ∈ partsOfItems items → inner.parts ⊆ partsOfItems items
  | item :: rest, inner, isPart => by
      rcases List.mem_append.mp isPart with isPart | isPart
      · exact List.subset_append_of_subset_left _ (parts_subset isPart)
      · exact List.subset_append_of_subset_right _ (partsOfItems_subset isPart)

/-- What a part of a dictionary is made of is part of the dictionary. -/
theorem partsOfEntries_subset : ∀ {entries : List (Bytes × Object)} {inner : Object},
    inner ∈ partsOfEntries entries → inner.parts ⊆ partsOfEntries entries
  | (_, value) :: rest, inner, isPart => by
      rcases List.mem_append.mp isPart with isPart | isPart
      · exact List.subset_append_of_subset_left _ (parts_subset isPart)
      · exact List.subset_append_of_subset_right _ (partsOfEntries_subset isPart)

end

/-- The elements of a list are among what it is made of. -/
theorem mem_partsOfItems {items : List Object} {item : Object} (isItem : item ∈ items) :
    item ∈ partsOfItems items := by
  induction items with
  | nil => cases isItem
  | cons first rest inductionHypothesis =>
      rcases List.mem_cons.mp isItem with rfl | isItem
      · exact List.mem_append_left _ (mem_parts_self _)
      · exact List.mem_append_right _ (inductionHypothesis isItem)

/-- A dictionary is made of what its values are made of. -/
theorem partsOfEntries_eq (entries : List (Bytes × Object)) :
    partsOfEntries entries = partsOfItems (entries.map Prod.snd) := by
  induction entries with
  | nil => rfl
  | cons entry rest inductionHypothesis => simp [partsOfEntries, partsOfItems, inductionHypothesis]

end Object

/-- A required value is the value of its key. -/
theorem Dictionary.require_eq_ok {dictionary : Dictionary} {key : String} {value : Object} :
    dictionary.require key = .ok value ↔ dictionary.get? key = some value := by
  unfold require
  split <;> simp_all

namespace Document

variable {document : Document} {object : Object}

/-- The objects that an object and a document are made of. -/
def objectsWith (document : Document) (object : Object) : List Object :=
  object.parts ++ Object.partsOfItems (document.objects.entries.map Prod.snd)

/-- There are as many objects as the sizes of the object and of the document tell. -/
theorem length_objectsWith (document : Document) (object : Object) :
    (document.objectsWith object).length = document.size + object.size := by
  rw [objectsWith, List.length_append, Object.length_parts, Object.length_partsOfItems,
    Nat.add_comm]
  rfl

/-- What one of the objects is made of is among them. -/
theorem parts_subset_objectsWith {inner : Object} (isInner : inner ∈ document.objectsWith object) :
    inner.parts ⊆ document.objectsWith object := by
  rcases List.mem_append.mp isInner with isPart | isPart
  · exact List.subset_append_of_subset_left _ (Object.parts_subset isPart)
  · exact List.subset_append_of_subset_right _ (Object.partsOfItems_subset isPart)

/-- The elements of an array among the objects are among them. -/
theorem mem_objectsWith_of_item {items : List Object} {item : Object}
    (isArray : .array items ∈ document.objectsWith object) (isItem : item ∈ items) :
    item ∈ document.objectsWith object :=
  parts_subset_objectsWith isArray (List.mem_cons_of_mem _ (Object.mem_partsOfItems isItem))

/-- The values of a dictionary, or of a stream, among the objects are among them. -/
theorem mem_objectsWith_of_entry {holder value : Object} {entries : Dictionary} {key : String}
    (isHolder : holder ∈ document.objectsWith object) (hasEntries : holder.entries? = some entries)
    (found : entries.get? key = some value) : value ∈ document.objectsWith object := by
  have isPart := Object.mem_partsOfItems (Table.mem_values_of_findIn found)
  rw [← Object.partsOfEntries_eq] at isPart
  cases holder with
  | dictionary | stream =>
      obtain rfl := Option.some.inj hasEntries
      exact parts_subset_objectsWith isHolder (List.mem_cons_of_mem _ isPart)
  | _ => simp [Object.entries?] at hasEntries

/-- A stored object is among the objects. -/
theorem mem_objectsWith_of_find? {target : ObjectId} {value : Object}
    (found : document.find? target = some value) : value ∈ document.objectsWith object :=
  List.mem_append_right _ (Object.mem_partsOfItems (Table.mem_values_of_findIn found))

/-- The value that one of the objects stands for is among them. -/
theorem mem_objectsWith_of_resolve {inner value : Object}
    (isInner : inner ∈ document.objectsWith object) (done : document.resolve inner = .ok value) :
    value ∈ document.objectsWith object := by
  simp only [resolve, Outcome.bind_eq_ok, Outcome.pure_eq_ok] at done
  obtain ⟨⟨location, _⟩, done, rfl⟩ := done
  obtain ⟨_, ⟨_, _, same⟩ | ⟨_, target, _, stored⟩⟩ := followChain_eq_ok done
  · exact same ▸ isInner
  · exact mem_objectsWith_of_find? stored

end Document
end Monochrome
