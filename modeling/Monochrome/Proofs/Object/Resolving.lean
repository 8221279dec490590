import Monochrome.Object.Access
import Monochrome.Proofs.Outcome

/-!
# Chains of references after a store

A chain of references ends at a value that is no reference, which is stored where the chain says.
If such a value is replaced by another one, every chain leads where it led before; only those that
end at the replaced value see the new one.
-/

namespace Monochrome

/-- Whether an object is a reference. -/
def Object.isReference : Object → Bool
  | .reference _ => true
  | _ => false

namespace Document

variable {document : Document}

/-- A stored object is found; the other ones are as before. -/
@[simp] theorem find?_store (document : Document) (target other : ObjectId) (value : Object) :
    (document.store target value).find? other =
      if target = other then some value else document.find? other :=
  Table.find?_insert _ _ _ _

/-- Storing an object where it is stored changes nothing. -/
theorem store_self {target : ObjectId} {value : Object}
    (stored : document.find? target = some value) :
    document.store target value = document := by
  rw [store, Table.insert_self stored]

/-- A value that is no reference stands for itself. -/
theorem followChain_of_value {steps : Nat} {location : Option ObjectId} {object : Object}
    (isValue : object.isReference = false) :
    document.followChain (steps + 1) location object = .ok (location, object) := by
  cases object <;> first | rfl | simp [Object.isReference] at isValue

/-- A chain ends at a value, which is stored where the chain says it is. -/
theorem followChain_eq_ok {steps : Nat} {start location : Option ObjectId}
    {object value : Object} (done : document.followChain steps start object = .ok (location, value)) :
    value.isReference = false ∧
      ((object.isReference = false ∧ location = start ∧ value = object) ∨
        (object.isReference = true ∧ ∃ target, location = some target ∧
          document.find? target = some value)) := by
  induction steps generalizing start object with
  | zero => simp [followChain] at done
  | succ steps inductionHypothesis =>
      cases isReference : object.isReference with
      | false =>
          rw [followChain_of_value isReference] at done
          obtain ⟨rfl, rfl⟩ := Prod.mk.inj (Except.ok.inj done)
          exact ⟨isReference, Or.inl ⟨rfl, rfl, rfl⟩⟩
      | true =>
          cases object <;> simp [Object.isReference] at isReference
          rename_i target
          simp only [followChain] at done
          split at done
          · rename_i next found
            obtain ⟨isValue, atEnd⟩ := inductionHypothesis done
            refine ⟨isValue, Or.inr ⟨rfl, ?_⟩⟩
            rcases atEnd with ⟨_, rfl, rfl⟩ | ⟨_, last, rfl, stored⟩
            · exact ⟨target, rfl, found⟩
            · exact ⟨last, rfl, stored⟩
          · simp at done

/-- What a chain sees after a value was replaced. -/
def seen (target : ObjectId) (new : Object) (location : Option ObjectId) (value : Object) : Object :=
  if location = some target then new else value

/-- After a value was replaced, a chain that starts at a reference leads where it led before, or fails
as it failed. -/
theorem followChain_store {target : ObjectId} {old new : Object}
    (stored : document.find? target = some old) (wasValue : old.isReference = false)
    (isValue : new.isReference = false) {steps : Nat} {start : Option ObjectId} {object : Object}
    (isReference : object.isReference = true) :
    (document.store target new).followChain steps start object =
      (fun (location, value) => (location, seen target new location value)) <$>
        document.followChain steps start object := by
  induction steps generalizing start object with
  | zero => rfl
  | succ steps inductionHypothesis =>
      cases object <;> simp [Object.isReference] at isReference
      rename_i next
      simp only [followChain, find?_store]
      by_cases atTarget : target = next
      · subst atTarget
        simp only [if_true, stored]
        cases steps with
        | zero => rfl
        | succ steps =>
            rw [followChain_of_value wasValue, followChain_of_value isValue]
            simp [seen]
      · simp only [atTarget, if_false]
        cases document.find? next with
        | none => rfl
        | some step =>
            cases again : step.isReference with
            | true => exact inductionHypothesis again
            | false =>
                cases steps with
                | zero => rfl
                | succ steps =>
                    simp only [followChain_of_value again]
                    simp [seen, Ne.symm atTarget]

/-- After a value was replaced, every object leads where it led before, or fails as it failed. -/
theorem resolveWithId_store_eq {target : ObjectId} {old new : Object}
    (stored : document.find? target = some old) (wasValue : old.isReference = false)
    (isValue : new.isReference = false) (object : Object) :
    (document.store target new).resolveWithId object =
      (fun (location, value) => (location, seen target new location value)) <$>
        document.resolveWithId object := by
  cases isReference : object.isReference with
  | true => exact followChain_store stored wasValue isValue isReference
  | false =>
      rw [resolveWithId, resolveWithId, chainLimit, followChain_of_value isReference,
        followChain_of_value isReference]
      simp [seen]

/-- After a value was replaced, an object stands for the new value if it stood for the old one, and
else for what it stood for before. -/
theorem resolveWithId_store {target : ObjectId} {old new : Object}
    (stored : document.find? target = some old) (wasValue : old.isReference = false)
    (isValue : new.isReference = false) {object value : Object} {location : Option ObjectId}
    (done : document.resolveWithId object = .ok (location, value)) :
    (document.store target new).resolveWithId object =
      .ok (location, seen target new location value) := by
  rw [resolveWithId_store_eq stored wasValue isValue, done]
  rfl

/-- The value that an object stands for is stored under the number that is told with it. -/
theorem find?_of_resolveWithId {object value : Object} {target : ObjectId}
    (done : document.resolveWithId object = .ok (some target, value)) :
    document.find? target = some value := by
  obtain ⟨_, ⟨_, none, _⟩ | ⟨_, last, same, stored⟩⟩ := followChain_eq_ok done
  · simp at none
  · obtain rfl := Option.some.inj same
    exact stored

/-- What an object stands for is no reference. -/
theorem isReference_of_resolveWithId {object value : Object} {location : Option ObjectId}
    (done : document.resolveWithId object = .ok (location, value)) :
    value.isReference = false :=
  (followChain_eq_ok done).1

/-- A value stands for itself. -/
theorem resolve_of_value {object : Object} (isValue : object.isReference = false) :
    document.resolve object = .ok object := by
  rw [resolve, resolveWithId, chainLimit, followChain_of_value isValue]
  rfl

/-- A reference to a value stands for the value. -/
theorem resolve_reference {target : ObjectId} {value : Object}
    (found : document.find? target = some value) (isValue : value.isReference = false) :
    document.resolve (.reference target) = .ok value := by
  rw [resolve, resolveWithId, chainLimit, followChain, found]
  show (do return (← document.followChain _ _ value).2) = _
  rw [followChain_of_value isValue]
  rfl

/-- What an object stands for is a value. -/
theorem isReference_of_resolve {object value : Object}
    (found : document.resolve object = .ok value) : value.isReference = false := by
  obtain ⟨⟨location, last⟩, resolved, same⟩ := Outcome.bind_eq_ok.1 found
  obtain rfl := Outcome.pure_eq_ok.1 same
  exact isReference_of_resolveWithId resolved

/-- A stored value that is no reference is fetched where it is. -/
theorem fetchChain_of_value {steps : Nat} {location : ObjectId} {object : Object}
    (isValue : object.isReference = false) :
    document.fetchChain steps location object = .ok (location, object) := by
  rw [fetchChain.eq_def]
  cases object <;> first | rfl | simp [Object.isReference] at isValue

/-- A value that is no reference is fetched under the number under which it is stored. -/
theorem fetchWithId_of_value {target : ObjectId} {object : Object}
    (stored : document.find? target = some object) (isValue : object.isReference = false) :
    document.fetchWithId target = .ok (target, object) := by
  rw [fetchWithId, fetchWithin, stored]
  exact fetchChain_of_value isValue

/-- A reference is fetched behind the object that it leads to, which takes a step. -/
theorem fetchChain_reference {steps : Nat} {start target : ObjectId}
    {result : ObjectId × Object}
    (done : document.fetchChain steps start (.reference target) = .ok result) :
    ∃ fewer next, steps = fewer + 1 ∧ document.find? target = some next ∧
      document.fetchChain fewer target next = .ok result := by
  rw [fetchChain.eq_def] at done
  dsimp only at done
  split at done
  · simp at done
  · simp at done
  · exact ⟨_, _, rfl, by assumption, done⟩

/-- A chain that starts at a stored object ends at a stored value. -/
theorem fetchChain_eq_ok {steps : Nat} {start location : ObjectId} {object value : Object}
    (atStart : document.find? start = some object)
    (done : document.fetchChain steps start object = .ok (location, value)) :
    value.isReference = false ∧ document.find? location = some value := by
  induction steps generalizing start object with
  | zero =>
      cases isReference : object.isReference with
      | false =>
          rw [fetchChain_of_value isReference] at done
          obtain ⟨rfl, rfl⟩ := Prod.mk.inj (Except.ok.inj done)
          exact ⟨isReference, atStart⟩
      | true =>
          cases object <;> simp [Object.isReference] at isReference
          obtain ⟨fewer, next, none, _⟩ := fetchChain_reference done
          simp at none
  | succ steps inductionHypothesis =>
      cases isReference : object.isReference with
      | false =>
          rw [fetchChain_of_value isReference] at done
          obtain ⟨rfl, rfl⟩ := Prod.mk.inj (Except.ok.inj done)
          exact ⟨isReference, atStart⟩
      | true =>
          cases object <;> simp [Object.isReference] at isReference
          obtain ⟨fewer, next, same, found, later⟩ := fetchChain_reference done
          obtain rfl := Nat.succ.inj same
          exact inductionHypothesis found later

/-- The object under a number is a value that is stored where it is told. -/
theorem fetchWithId_eq_ok {target location : ObjectId} {value : Object}
    (done : document.fetchWithId target = .ok (location, value)) :
    value.isReference = false ∧ document.find? location = some value := by
  unfold fetchWithId fetchWithin at done
  split at done
  · exact fetchChain_eq_ok (by assumption) done
  · simp at done

/-- After a value was replaced, a chain that starts at a stored object leads where it led before, or
fails as it failed. -/
theorem fetchChain_store {target : ObjectId} {old new : Object}
    (stored : document.find? target = some old) (wasValue : old.isReference = false)
    (isValue : new.isReference = false) {steps : Nat} {start : ObjectId} {object : Object}
    (isReference : object.isReference = true) :
    (document.store target new).fetchChain steps start object =
      (fun (location, value) => (location, seen target new (some location) value)) <$>
        document.fetchChain steps start object := by
  induction steps generalizing start object with
  | zero =>
      cases object <;> simp [Object.isReference] at isReference
      rename_i next
      rw [fetchChain.eq_def, fetchChain.eq_def document]
      by_cases atTarget : target = next
      · subst atTarget
        simp [stored]
      · simp only [find?_store, atTarget, if_false]
        cases document.find? next <;> rfl
  | succ steps inductionHypothesis =>
      cases object <;> simp [Object.isReference] at isReference
      rename_i next
      rw [fetchChain.eq_def, fetchChain.eq_def document]
      by_cases atTarget : target = next
      · subst atTarget
        simp [stored, fetchChain_of_value wasValue, fetchChain_of_value isValue, seen]
      · simp only [find?_store, atTarget, if_false]
        cases document.find? next with
        | none => rfl
        | some step =>
            cases again : step.isReference with
            | true => exact inductionHypothesis again
            | false => simp [fetchChain_of_value again, seen, Ne.symm atTarget]

/-- After a value was replaced, fetching leads where it led before, or fails as it failed. -/
theorem fetchWithId_store_eq {target : ObjectId} {old new : Object}
    (stored : document.find? target = some old) (wasValue : old.isReference = false)
    (isValue : new.isReference = false) (start : ObjectId) :
    (document.store target new).fetchWithId start =
      (fun (location, value) => (location, seen target new (some location) value)) <$>
        document.fetchWithId start := by
  unfold fetchWithId fetchWithin
  rw [find?_store]
  by_cases atTarget : target = start
  · subst atTarget
    simp [stored, fetchChain_of_value wasValue, fetchChain_of_value isValue, seen]
  · rw [if_neg atTarget]
    cases document.find? start with
    | none => rfl
    | some object =>
        cases again : object.isReference with
        | true => exact fetchChain_store stored wasValue isValue again
        | false => simp [fetchChain_of_value again, seen, Ne.symm atTarget]

/-- After a value was replaced, fetching leads where it led before. -/
theorem fetchWithId_store {target : ObjectId} {old new : Object}
    (stored : document.find? target = some old) (wasValue : old.isReference = false)
    (isValue : new.isReference = false) {start location : ObjectId} {value : Object}
    (done : document.fetchWithId start = .ok (location, value)) :
    (document.store target new).fetchWithId start =
      .ok (location, seen target new (some location) value) := by
  rw [fetchWithId_store_eq stored wasValue isValue, done]
  rfl

end Document
end Monochrome
