import Mathlib.Order.Defs.Unbundled
import Monochrome.Proofs.Object.Parts

/-!
# What a change spares

A change of a document spares what it does not touch: no object is removed, what is there stays as it
is unless it is touched, and what is new gets a number above all others.  That needs a document that
knows its highest number, which a change then leaves.
-/

namespace Monochrome

/-- The entries of a table that is made of entries are among them. -/
theorem Table.mem_ofList {κ α : Type} [DecidableEq κ] {entries : List (κ × α)} {entry : κ × α}
    (isEntry : entry ∈ (ofList entries).entries) : entry ∈ entries := by
  have inserted (table : Table κ α) (isEntry : entry ∈ (entries.foldl
      (fun table (key, value) => table.insert key value) table).entries) :
      entry ∈ entries ∨ entry ∈ table.entries := by
    clear * - isEntry
    induction entries generalizing table with
    | nil => exact Or.inr isEntry
    | cons first rest inductionHypothesis =>
        rcases inductionHypothesis _ isEntry with later | known
        · exact Or.inl (List.mem_cons_of_mem _ later)
        · rcases mem_insert known with rfl | known
          · exact Or.inl List.mem_cons_self
          · exact Or.inr known
  exact (inserted empty isEntry).resolve_right List.not_mem_nil

namespace Document

/-- Whether no object of a document has a number above the highest one. -/
def IsNumbered (document : Document) : Prop :=
  ∀ target object, document.find? target = some object → target.number ≤ document.highest

/-- A document that is made of objects knows its highest number. -/
theorem isNumbered_ofObjects (objects : List (ObjectId × Object)) (trailer : Dictionary) :
    (ofObjects objects trailer).IsNumbered := by
  have bounds (list : List (ObjectId × Object)) (least : Nat) :
      least ≤ list.foldl (fun highest entry => max highest entry.1.number) least ∧
        ∀ entry ∈ list, entry.1.number ≤
          list.foldl (fun highest entry => max highest entry.1.number) least := by
    induction list generalizing least with
    | nil => simp
    | cons first rest inductionHypothesis =>
        obtain ⟨above, within⟩ := inductionHypothesis (max least first.1.number)
        rw [List.forall_mem_cons]
        exact ⟨Nat.le_trans (Nat.le_max_left _ _) above,
          Nat.le_trans (Nat.le_max_right _ _) above, within⟩
  intro target object found
  exact (bounds objects 0).2 (target, object) (Table.mem_ofList (Table.mem_of_findIn found))

/-- Whether a document comes from another one by changes of what is touched, and by additions. -/
structure ChangesOnly (touched : ObjectId → Prop) (before after : Document) : Prop where
  /-- Numbers are only given away. -/
  highest : before.highest ≤ after.highest
  /-- What is there stays, and stays as it is unless it is touched. -/
  kept : ∀ target object, before.find? target = some object →
    ∃ now, after.find? target = some now ∧ (now = object ∨ touched target)
  /-- What is new got its number since. -/
  added : ∀ target object, before.find? target = none → after.find? target = some object →
    before.highest < target.number ∧ target.number ≤ after.highest

/-- Whether a change, of a document that knows its highest number, spares what is not touched. -/
def Spares (touched : ObjectId → Prop) (before after : Document) : Prop :=
  before.IsNumbered → before.ChangesOnly touched after

section Spares

variable {touched : ObjectId → Prop} {document before middle after : Document}

/-- A change leaves a document that knows its highest number. -/
theorem ChangesOnly.isNumbered (changes : before.ChangesOnly touched after)
    (isNumbered : before.IsNumbered) : after.IsNumbered := by
  intro target object found
  cases was : before.find? target with
  | none => exact (changes.added target object was found).2
  | some old => exact Nat.le_trans (isNumbered target old was) changes.highest

/-- Nothing changes. -/
theorem ChangesOnly.refl (document : Document) : document.ChangesOnly touched document where
  highest := Nat.le_refl _
  kept _ object found := ⟨object, found, Or.inl rfl⟩
  added _ _ absent found := by simp [absent] at found

/-- Changes follow each other. -/
theorem ChangesOnly.trans (early : before.ChangesOnly touched middle)
    (late : middle.ChangesOnly touched after) : before.ChangesOnly touched after where
  highest := Nat.le_trans early.highest late.highest
  kept target object found := by
    obtain ⟨between, atMiddle, wasKept⟩ := early.kept target object found
    obtain ⟨now, atEnd, isKept⟩ := late.kept target between atMiddle
    refine ⟨now, atEnd, ?_⟩
    rcases isKept with rfl | isTouched
    · exact wasKept
    · exact Or.inr isTouched
  added target object absent found := by
    cases atMiddle : middle.find? target with
    | none =>
        obtain ⟨above, within⟩ := late.added target object atMiddle found
        exact ⟨Nat.lt_of_le_of_lt early.highest above, within⟩
    | some old =>
        obtain ⟨above, within⟩ := early.added target old absent atMiddle
        exact ⟨above, Nat.le_trans within late.highest⟩

instance : IsPreorder Document (Spares touched) where
  refl document _ := .refl document
  trans _ _ _ early late isNumbered :=
    (early isNumbered).trans (late ((early isNumbered).isNumbered isNumbered))

/-- Storing an object in the place of a touched one spares the others. -/
theorem spares_store {target : ObjectId} {old : Object} (value : Object)
    (stored : document.find? target = some old) (isTouched : touched target) :
    document.Spares touched (document.store target value) := by
  intro _
  refine ⟨Nat.le_refl _, fun other object found => ?_, fun other object absent found => ?_⟩
  · rw [find?_store]
    by_cases same : target = other
    · exact ⟨value, if_pos same, Or.inr (same ▸ isTouched)⟩
    · exact ⟨object, (if_neg same).trans found, Or.inl rfl⟩
  · have differ : target ≠ other := by
      rintro rfl
      simp [absent] at stored
    rw [find?_store, if_neg differ, absent] at found
    cases found

/-- An addition spares everything. -/
theorem spares_add (value : Object) : document.Spares touched (add value document).2 := by
  intro isNumbered
  have fresh (target : ObjectId) (object : Object) (found : document.find? target = some object) :
      (⟨document.highest + 1, 0⟩ : ObjectId) ≠ target := by
    rintro rfl
    exact absurd (isNumbered _ object found) (Nat.not_succ_le_self _)
  have isStore (target : ObjectId) : (add value document).2.find? target =
      if (⟨document.highest + 1, 0⟩ : ObjectId) = target then some value
      else document.find? target :=
    find?_store document _ target value
  refine ⟨Nat.le_succ _, fun target object found => ?_, fun target object absent found => ?_⟩
  · exact ⟨object, by rw [isStore, if_neg (fresh target object found), found], Or.inl rfl⟩
  · rw [isStore] at found
    split at found
    · rename_i isNew
      subst isNew
      exact ⟨Nat.lt_succ_self _, Nat.le_refl _⟩
    · simp [absent] at found

end Spares

end Document
end Monochrome
