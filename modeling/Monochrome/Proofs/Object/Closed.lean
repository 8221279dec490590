import Monochrome.Proofs.Conversion.Attaching
import Monochrome.Proofs.Object.Gaining

/-!
# Closed documents

A document is closed if it has every object that one of its objects refers to.  Nothing in a closed
document leads to an object that is added, so whatever is read of the document is read as before: what
a chain of references leads to, and the fault with which it leads nowhere.
-/

namespace Monochrome

/-- The numbers to which the parts of an object refer. -/
def Object.references (object : Object) : List ObjectId :=
  object.parts.filterMap fun
    | .reference target => some target
    | _ => none

/-- A number is referred to if a reference to it is a part. -/
theorem Object.mem_references {object : Object} {target : ObjectId} :
    target ∈ object.references ↔ .reference target ∈ object.parts := by
  rw [references, List.mem_filterMap]
  constructor
  · rintro ⟨part, isPart, same⟩
    cases part <;> cases same
    exact isPart
  · exact fun isPart => ⟨_, isPart, rfl⟩

namespace Document

variable {document other : Document} {kind : Object → Prop} {object value : Object}

/-! ## Reading in documents that agree -/

section Agreeing

variable (agree : document.Agree kind other)
include agree

/-- A chain of references leads to the same in a document that agrees, or fails in the same way. -/
theorem Agree.followChain_eq (isKind : kind object) {steps : Nat} {location : Option ObjectId} :
    other.followChain steps location object = document.followChain steps location object := by
  induction steps generalizing location object with
  | zero => rfl
  | succ steps inductionHypothesis =>
      cases object with
      | reference target =>
          simp only [followChain, ← agree.target target isKind]
          cases found : document.find? target with
          | none => rfl
          | some next => exact inductionHypothesis (agree.stored target next isKind found)
      | _ => rfl

/-- An object stands for the same, stored where it was. -/
theorem Agree.resolveWithId_eq (isKind : kind object) :
    other.resolveWithId object = document.resolveWithId object :=
  agree.followChain_eq isKind

/-- A longer chain of references leads to the same, or fails in the same way. -/
theorem Agree.fetchChain_eq (isKind : kind object) {steps : Nat} {start : ObjectId} :
    other.fetchChain steps start object = document.fetchChain steps start object := by
  induction steps generalizing start object with
  | zero =>
      cases object with
      | reference target =>
          rw [fetchChain.eq_def, fetchChain.eq_def document]
          dsimp only
          rw [agree.target target isKind]
          cases other.find? target <;> rfl
      | _ => rw [fetchChain_of_value rfl, fetchChain_of_value rfl]
  | succ steps inductionHypothesis =>
      cases object with
      | reference target =>
          rw [fetchChain.eq_def, fetchChain.eq_def document]
          dsimp only
          rw [← agree.target target isKind]
          cases found : document.find? target with
          | none => rfl
          | some next => exact inductionHypothesis (agree.stored target next isKind found)
      | _ => rw [fetchChain_of_value rfl, fetchChain_of_value rfl]

/-- What a number leads to is the same, if the same object of a kind stands under it. -/
theorem Agree.fetchWithId_eq {start : ObjectId} (same : document.find? start = other.find? start)
    (isKind : ∀ value, document.find? start = some value → kind value) :
    other.fetchWithId start = document.fetchWithId start := by
  unfold fetchWithId fetchWithin
  rw [← same]
  cases found : document.find? start with
  | none => rfl
  | some object => exact agree.fetchChain_eq (isKind object found)

/-- A longer chain of references leads to an object of the same kind. -/
theorem Agree.kind_of_fetchChain (isKind : kind object) {steps : Nat} {start location : ObjectId}
    (fetched : document.fetchChain steps start object = .ok (location, value)) : kind value := by
  induction steps generalizing start object with
  | zero =>
      cases object with
      | reference target =>
          obtain ⟨_, _, none, _⟩ := fetchChain_reference fetched
          cases none
      | _ =>
          rw [fetchChain_of_value rfl] at fetched
          obtain ⟨_, rfl⟩ := Prod.mk.inj (Except.ok.inj fetched)
          exact isKind
  | succ steps inductionHypothesis =>
      cases object with
      | reference target =>
          obtain ⟨_, next, same, found, fetched⟩ := fetchChain_reference fetched
          obtain rfl := Nat.succ.inj same
          exact inductionHypothesis (agree.stored target next isKind found) fetched
      | _ =>
          rw [fetchChain_of_value rfl] at fetched
          obtain ⟨_, rfl⟩ := Prod.mk.inj (Except.ok.inj fetched)
          exact isKind

end Agreeing

/-! ## Adding an object to a closed document -/

/-- Whether a document has every object to which the parts of an object refer. -/
def Knows (document : Document) (object : Object) : Prop :=
  ∀ target ∈ object.references, document.find? target ≠ none

/-- Whether a document has every object to which one of its objects refers. -/
def IsClosed (document : Document) : Prop :=
  ∀ target object, document.find? target = some object → document.Knows object

/-- A document is closed if its entries refer to nothing that is missing. -/
theorem isClosed_of_entries
    (all : ∀ entry ∈ document.objects.entries, ∀ target ∈ entry.2.references,
      (document.find? target).isSome = true) : document.IsClosed := by
  intro target object found reference isReference absent
  have isThere := all (target, object) (Table.mem_of_findIn found) reference isReference
  rw [absent] at isThere
  cases isThere

/-- What a document knows of an object it knows of its parts. -/
theorem Knows.part {part : Object} (knows : document.Knows object) (isPart : part ∈ object.parts) :
    document.Knows part :=
  fun target isReference => knows target <| Object.mem_references.2 <|
    Object.parts_subset isPart (Object.mem_references.1 isReference)

/-- What a document knows of an object it knows of its entries. -/
theorem Knows.entry {entries : Dictionary} {key : Bytes} (knows : document.Knows object)
    (has : object.entries? = some entries) (found : entries.find? key = some value) :
    document.Knows value := by
  have isPart := Object.mem_partsOfItems (Table.mem_values_of_findIn found)
  rw [← Object.partsOfEntries_eq] at isPart
  cases object with
  | dictionary | stream =>
      obtain rfl := Option.some.inj has
      exact knows.part (List.mem_cons_of_mem _ isPart)
  | _ => cases has

/-- An object that is there has another number than one that is added. -/
theorem fresh_ne_of_find? (isNumbered : document.IsNumbered) {target : ObjectId}
    (isThere : document.find? target ≠ none) : document.fresh ≠ target := by
  rintro rfl
  obtain ⟨object, found⟩ := Option.ne_none_iff_exists'.1 isThere
  exact absurd (isNumbered _ object found) (Nat.not_succ_le_self document.highest)

/-- Only the added object is found elsewhere than before. -/
theorem find?_add_of_ne (added : Object) {target : ObjectId} (isOther : document.fresh ≠ target) :
    (add added document).2.find? target = document.find? target :=
  (find?_add document added target).trans (if_neg isOther)

/-- A closed document agrees, on all that it knows, with the one to which an object is added. -/
theorem agree_add (isNumbered : document.IsNumbered) (isClosed : document.IsClosed)
    (added : Object) : document.Agree document.Knows (add added document).2 where
  item items item knows isItem :=
    knows.part (List.mem_cons_of_mem _ (Object.mem_partsOfItems isItem))
  entry holder entries key value knows has found := knows.entry has found
  target target knows := by
    have isThere : document.find? target ≠ none :=
      knows target (Object.mem_references.2 (Object.mem_parts_self _))
    exact (find?_add_of_ne added (fresh_ne_of_find? isNumbered isThere)).symm
  stored target value _ found := isClosed target value found

end Document
end Monochrome
