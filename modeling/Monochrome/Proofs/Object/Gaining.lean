import Monochrome.Proofs.Object.Agreeing
import Monochrome.Proofs.Object.Resolving
import Monochrome.Proofs.Object.Sparing

/-!
# Documents that gain streams

A document gains streams if nothing else happens to it: it keeps its objects, and whatever is new is a
stream.  What was read before is then read as it was.  A reference that led nowhere can lead to a
stream now, but no reading that succeeded had followed it, except for a parameter of a filter that was
left out since it is no dictionary; a stream is none either.
-/

namespace Monochrome
namespace Document

/-- Whether a document that knows its highest number has what another one has, and beyond that only
streams. -/
structure Gains (document later : Document) : Prop where
  isNumbered : later.IsNumbered
  kept target object : document.find? target = some object → later.find? target = some object
  added target : document.find? target = none →
    later.find? target = none ∨ ∃ stream : Stream, later.find? target = some stream.toObject

variable {document middle later : Document}

/-- Nothing is gained. -/
theorem Gains.refl (isNumbered : document.IsNumbered) : document.Gains document where
  isNumbered := isNumbered
  kept _ _ := id
  added _ := Or.inl

/-- Streams are gained one after the other. -/
theorem Gains.trans (early : document.Gains middle) (late : middle.Gains later) :
    document.Gains later where
  isNumbered := late.isNumbered
  kept target object found := late.kept target object (early.kept target object found)
  added target absent := by
    rcases early.added target absent with absent | ⟨stream, isNew⟩
    · exact late.added target absent
    · exact Or.inr ⟨stream, late.kept target _ isNew⟩

/-- What was added is found under the number that it got. -/
theorem find?_add (document : Document) (value : Object) (target : ObjectId) :
    (add value document).2.find? target =
      if (add value document).1 = target then some value else document.find? target :=
  find?_store document _ target value

/-- A stream that is added is gained. -/
theorem gains_add (isNumbered : document.IsNumbered) (stream : Stream) :
    document.Gains (add stream.toObject document).2 := by
  have changes : document.ChangesOnly (fun _ => False) (add stream.toObject document).2 :=
    spares_add stream.toObject isNumbered
  refine ⟨changes.isNumbered isNumbered, fun target object found => ?_, fun target absent => ?_⟩
  · obtain ⟨now, isNow, rfl | touched⟩ := changes.kept target object found
    · exact isNow
    · exact touched.elim
  · rw [find?_add]
    split
    · exact Or.inr ⟨stream, rfl⟩
    · exact Or.inl absent

/-- All objects lead to the same in a document that gained streams. -/
theorem Gains.leads (gains : document.Gains later) : document.Leads (fun _ => True) later where
  item _ _ _ _ := trivial
  entry _ _ _ _ _ _ _ := trivial
  target target value _ := gains.kept target value
  missing target _ := gains.added target
  stored _ _ _ _ := trivial

/-- Numbers are read from an array of them. -/
theorem numbers_map {α : Type} {make : α → Object} {value : α → Float32}
    (isNumber : ∀ element, (make element).number? = some (value element)) (document : Document)
    (list : List α) : document.numbers (.array (list.map make)) = .ok (list.map value) := by
  rw [numbers, resolve_of_value rfl]
  show (list.map make).mapM _ = _
  rw [Outcome.mapM_eq_ok, List.forall₂_map_left_iff, List.forall₂_map_right_iff, List.forall₂_same]
  intro element _
  have isValue : (make element).isReference = false := by
    have told := isNumber element
    generalize make element = item at told
    cases item with
    | reference target => cases told
    | _ => rfl
  rw [resolve_of_value isValue]
  show (make element).asNumber = _
  rw [Object.asNumber, isNumber]

/-- Real numbers are read from the array of them. -/
theorem numbers_reals (document : Document) (values : List Float32) :
    document.numbers (Object.reals values) = .ok values := by
  rw [Object.reals, numbers_map (fun _ => rfl), List.map_id']

end Document
end Monochrome
