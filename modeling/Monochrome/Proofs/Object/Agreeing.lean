import Monochrome.Filter.Chain
import Monochrome.Proofs.Object.Parts
import Monochrome.Proofs.Outcome

/-!
# Documents that agree

What is read of an object depends only on what the object leads to: its items, its entries and the
objects that it refers to.  Two documents that agree on all of these cannot be told apart by reading
the object.  What is read with success carries over to a document that has the same and more streams.
-/

namespace Monochrome
namespace Document

/-- Whether objects of a kind lead only to objects of that kind, and refer to the same ones in two
documents. -/
structure Agree (kind : Object → Prop) (document other : Document) : Prop where
  item items item : kind (.array items) → item ∈ items → kind item
  entry holder entries key value : kind holder → holder.entries? = some entries →
    entries.find? key = some value → kind value
  target target : kind (.reference target) → document.find? target = other.find? target
  stored target value : kind (.reference target) → document.find? target = some value → kind value

/-- Whether objects of a kind lead only to objects of that kind, and to the same ones in another
document, in which streams may be new. -/
structure Leads (kind : Object → Prop) (document other : Document) : Prop where
  item items item : kind (.array items) → item ∈ items → kind item
  entry holder entries key value : kind holder → holder.entries? = some entries →
    entries.find? key = some value → kind value
  target target value : kind (.reference target) → document.find? target = some value →
    other.find? target = some value
  missing target : kind (.reference target) → document.find? target = none →
    other.find? target = none ∨ ∃ stream : Stream, other.find? target = some stream.toObject
  stored target value : kind (.reference target) → document.find? target = some value → kind value

/-- Whether the entries of a dictionary are of a kind. -/
def Agree.Holds (kind : Object → Prop) (entries : Dictionary) : Prop :=
  ∀ key value, entries.find? key = some value → kind value

variable {kind : Object → Prop} {document other : Document}
variable {object value : Object} {entries : Dictionary} {key : String}

/-- Documents agree in both directions. -/
theorem Agree.symm (agree : document.Agree kind other) : other.Agree kind document where
  item := agree.item
  entry := agree.entry
  target target isKind := (agree.target target isKind).symm
  stored target value isKind found :=
    agree.stored target value isKind ((agree.target target isKind).trans found)

/-- Objects lead to the same in a document that agrees. -/
theorem Agree.leads (agree : document.Agree kind other) : document.Leads kind other where
  item := agree.item
  entry := agree.entry
  target target _ isKind found := (agree.target target isKind).symm.trans found
  missing target isKind found := Or.inl ((agree.target target isKind).symm.trans found)
  stored := agree.stored

open Outcome

section Reading

variable (leads : document.Leads kind other)
include leads

/-- The entries of an object of a kind are of that kind. -/
theorem holds_of_entries? (isKind : kind object) (has : object.entries? = some entries) :
    Agree.Holds kind entries :=
  fun _ _ found => leads.entry _ _ _ _ isKind has found

/-- A chain of references leads to the same in the other document. -/
theorem carries_followChain (isKind : kind object) {steps : Nat} {location : Option ObjectId} :
    Carries (document.followChain steps location object)
      (other.followChain steps location object) := by
  induction steps generalizing location object with
  | zero => exact .refl _
  | succ steps inductionHypothesis =>
      cases object with
      | reference target =>
          simp only [followChain]
          cases found : document.find? target with
          | none => rintro _ ⟨⟩
          | some next =>
              rw [leads.target target next isKind found]
              exact inductionHypothesis (leads.stored target next isKind found)
      | _ => exact .refl _

/-- A chain of references that leads to a dictionary in the other document does so in the first. -/
theorem followChain_eq_dictionary (isKind : kind object) {steps : Nat}
    {location place : Option ObjectId}
    (found : other.followChain steps location object = .ok (place, .dictionary entries)) :
    document.followChain steps location object = .ok (place, .dictionary entries) := by
  induction steps generalizing location object with
  | zero => cases found
  | succ steps inductionHypothesis =>
      cases object with
      | reference target =>
          simp only [followChain] at found ⊢
          cases isStored : document.find? target with
          | some next =>
              rw [leads.target target next isKind isStored] at found
              exact inductionHypothesis (leads.stored target next isKind isStored) found
          | none =>
              rcases leads.missing target isKind isStored with missing | ⟨stream, isNew⟩
              · rw [missing] at found
                cases found
              · rw [isNew] at found
                cases steps <;> cases found
      | _ => exact found

/-- A chain of references leads to an object of the same kind. -/
theorem kind_of_followChain (isKind : kind object) {steps : Nat}
    {location place : Option ObjectId}
    (found : document.followChain steps location object = .ok (place, value)) : kind value := by
  induction steps generalizing location object with
  | zero => cases found
  | succ steps inductionHypothesis =>
      cases object with
      | reference target =>
          simp only [followChain] at found
          split at found
          · rename_i next isStored
            exact inductionHypothesis (leads.stored target next isKind isStored) found
          · cases found
      | _ =>
          obtain ⟨_, rfl⟩ := Prod.mk.inj (Except.ok.inj found)
          exact isKind

/-- An object stands for the same in the other document. -/
theorem carries_resolve (isKind : kind object) :
    Carries (document.resolve object) (other.resolve object) :=
  (carries_followChain leads isKind).bind fun _ _ => .refl _

/-- An object that stands for a dictionary in the other document does so in the first. -/
theorem resolve_eq_dictionary (isKind : kind object)
    (found : other.resolve object = .ok (.dictionary entries)) :
    document.resolve object = .ok (.dictionary entries) := by
  obtain ⟨⟨place, last⟩, resolved, same⟩ := bind_eq_ok.1 found
  obtain rfl : last = .dictionary entries := pure_eq_ok.1 same
  exact bind_eq_ok.2 ⟨_, followChain_eq_dictionary leads isKind resolved, rfl⟩

/-- An object stands for one of the same kind. -/
theorem kind_of_resolve (isKind : kind object) (found : document.resolve object = .ok value) :
    kind value := by
  obtain ⟨⟨place, last⟩, resolved, same⟩ := bind_eq_ok.1 found
  obtain rfl := pure_eq_ok.1 same
  exact kind_of_followChain leads isKind resolved

/-- What is read of the value that an object stands for carries over. -/
theorem carries_resolve_bind {α : Type} {next following : Object → Outcome α}
    (isKind : kind object)
    (rest : ∀ value, kind value → Carries (next value) (following value)) :
    Carries (document.resolve object >>= next) (other.resolve object >>= following) :=
  (carries_resolve leads isKind).bind fun value found =>
    rest value (kind_of_resolve leads isKind found)

/-- An entry has the same value in both documents. -/
theorem carries_entry (holds : Agree.Holds kind entries) :
    Carries (document.entry? entries key) (other.entry? entries key) := by
  unfold entry?
  cases found : entries.get? key with
  | none => exact .refl _
  | some value => exact (carries_resolve leads (holds _ _ found)).map _

/-- The value of an entry is of the same kind. -/
theorem kind_of_entry (holds : Agree.Holds kind entries)
    (found : document.entry? entries key = .ok (some value)) : kind value := by
  unfold entry? at found
  split at found
  · rename_i object isEntry
    obtain ⟨_, resolved, same⟩ := map_eq_ok.1 found
    obtain rfl := Option.some.inj same
    exact kind_of_resolve leads (holds _ _ isEntry) resolved
  · cases found

/-- The first of two entries has the same value in both documents. -/
theorem carries_eitherEntry {second : String} (holds : Agree.Holds kind entries) :
    Carries (document.eitherEntry? entries key second) (other.eitherEntry? entries key second) := by
  refine (carries_entry leads holds).bind fun value _ => ?_
  cases value with
  | some value => exact .refl _
  | none => exact carries_entry leads holds

/-- The value of the first of two entries is of the same kind. -/
theorem kind_of_eitherEntry {second : String} (holds : Agree.Holds kind entries)
    (found : document.eitherEntry? entries key second = .ok (some value)) : kind value := by
  obtain ⟨first, atFirst, found⟩ := bind_eq_ok.1 found
  cases first with
  | some first =>
      obtain rfl := Option.some.inj (pure_eq_ok.1 found)
      exact kind_of_entry leads holds atFirst
  | none => exact kind_of_entry leads holds found

/-- An integer is the same in both documents. -/
theorem carries_integerEntry (holds : Agree.Holds kind entries) :
    Carries (document.integerEntry? entries key) (other.integerEntry? entries key) :=
  (carries_entry leads holds).bind fun _ _ => .refl _

/-- Numbers are the same in both documents. -/
theorem carries_numbers (isKind : kind object) :
    Carries (document.numbers object) (other.numbers object) := by
  refine carries_resolve_bind leads isKind fun value isKind => ?_
  cases value with
  | array items =>
      refine .mapM fun item isItem => ?_
      exact carries_resolve_bind leads (leads.item _ _ isKind isItem) fun _ _ => .refl _
  | _ => exact .refl _

/-- Numbers with a default are the same in both documents. -/
theorem carries_numbersOr {default : List Float32} (holds : Agree.Holds kind entries) :
    Carries (document.numbersOr entries key default) (other.numbersOr entries key default) := by
  unfold numbersOr
  cases found : entries.get? key with
  | none => exact .refl _
  | some value => exact carries_numbers leads (holds _ _ found)

end Reading

end Document

namespace Filter

open Document Outcome

variable {kind : Object → Prop} {document other : Document} (leads : document.Leads kind other)
variable {entries : Dictionary}
include leads

/-- Filters are the same where objects lead to the same. -/
theorem carries_names (holds : Agree.Holds kind entries) :
    Carries (names document entries) (names other entries) := by
  refine (carries_eitherEntry leads holds).bind fun value found => ?_
  cases value with
  | none => exact .refl _
  | some value =>
      have isKind := kind_of_eitherEntry leads holds found
      cases value with
      | array items =>
          refine .mapM fun item isItem => ?_
          exact carries_resolve_bind leads (leads.item _ _ isKind isItem) fun _ _ => .refl _
      | _ => exact .refl _

/-- The parameters of filters are the same where objects lead to the same. -/
theorem carries_parameterDictionaries {count : Nat} (holds : Agree.Holds kind entries) :
    Carries (parameterDictionaries document entries count)
      (parameterDictionaries other entries count) := by
  refine (carries_eitherEntry leads holds).bind fun value found => ?_
  cases value with
  | none => exact .refl _
  | some value =>
      have isKind := kind_of_eitherEntry leads holds found
      cases value with
      | array items =>
          refine .of_eq (congrArg pure (List.map_congr_left fun item isItem => ?_))
          cases found : document.resolve item with
          | ok value => rw [carries_resolve leads (leads.item _ _ isKind isItem) value found]
          | error fault =>
              dsimp only
              split
              next dictionary isDictionary =>
                rw [resolve_eq_dictionary leads (leads.item _ _ isKind isItem) isDictionary] at found
                cases found
              next => rfl
      | _ => exact .refl _

/-- The parameters of filters are of the kind of the stream. -/
theorem holds_of_parameterDictionaries {count : Nat} {parameters : List (Option Dictionary)}
    (holds : Agree.Holds kind entries)
    (read : parameterDictionaries document entries count = .ok parameters) {dictionary : Dictionary}
    (isParameter : some dictionary ∈ parameters) : Agree.Holds kind dictionary := by
  obtain ⟨value, found, read⟩ := bind_eq_ok.1 read
  split at read
  · obtain rfl := pure_eq_ok.1 read
    simp at isParameter
  · obtain rfl := pure_eq_ok.1 read
    simp at isParameter
  · rename_i entries
    obtain rfl := pure_eq_ok.1 read
    obtain rfl : dictionary = entries := by simpa using isParameter
    exact holds_of_entries? leads (kind_of_eitherEntry leads holds found) rfl
  · rename_i items
    obtain rfl := pure_eq_ok.1 read
    obtain ⟨item, isItem, isDictionary⟩ := List.mem_map.1 isParameter
    have isKind := leads.item _ _ (kind_of_eitherEntry leads holds found) isItem
    split at isDictionary
    · rename_i resolved
      obtain rfl := Option.some.inj isDictionary
      exact holds_of_entries? leads (kind_of_resolve leads isKind resolved) rfl
    · cases isDictionary
  · cases read

/-- A chain of filters is the same where objects lead to the same. -/
theorem carries_chain (holds : Agree.Holds kind entries) :
    Carries (chain document entries) (chain other entries) :=
  (carries_names leads holds).bind fun _ _ =>
    (carries_parameterDictionaries leads holds).bind fun _ _ => .refl _

/-- The parameters in a chain of filters are of the kind of the stream. -/
theorem holds_of_chain {filters : List (Filter × Option Dictionary)}
    (holds : Agree.Holds kind entries) (read : chain document entries = .ok filters)
    {filter : Filter} {dictionary : Dictionary} (isFilter : (filter, some dictionary) ∈ filters) :
    Agree.Holds kind dictionary := by
  obtain ⟨names, _, read⟩ := bind_eq_ok.1 read
  obtain ⟨parameters, isParameters, read⟩ := bind_eq_ok.1 read
  obtain ⟨⟨name, index⟩, _, isFilter⟩ := exists_of_mapM read isFilter
  dsimp only at isFilter
  split at isFilter
  · obtain ⟨_, isParameter⟩ := Prod.mk.inj (Except.ok.inj isFilter)
    have found : parameters[index]? = some (some dictionary) := by
      cases atIndex : parameters[index]? with
      | none => simp [atIndex] at isParameter
      | some parameter =>
          rw [atIndex, Option.join_some] at isParameter
          rw [isParameter]
    exact holds_of_parameterDictionaries leads holds isParameters (List.mem_of_getElem? found)
  · cases isFilter

/-- The parameters of a filter are the same where objects lead to the same. -/
theorem carries_parametersOf {dictionary : Option Dictionary}
    (holds : ∀ entries ∈ dictionary, Agree.Holds kind entries) :
    Carries (parametersOf document dictionary) (parametersOf other dictionary) := by
  cases dictionary with
  | none => exact .refl _
  | some entries =>
      have integer (key : String) :
          Carries (document.integerEntry? entries key) (other.integerEntry? entries key) :=
        carries_integerEntry leads (holds entries rfl)
      unfold parametersOf Parameters.ofDictionary
      dsimp only
      refine (integer _).bind fun _ _ => (integer _).bind fun _ _ => (integer _).bind fun _ _ => ?_
      exact (integer _).bind fun _ _ => (integer _).bind fun _ _ => .refl _

/-- Data is decoded in the same way where objects lead to the same. -/
theorem carries_decodeChain {filters : List (Filter × Option Dictionary)} {data : Bytes}
    (holds : ∀ filter entries, (filter, some entries) ∈ filters → Agree.Holds kind entries) :
    Carries (decodeChain document filters data) (decodeChain other filters data) := by
  induction filters generalizing data with
  | nil => exact .refl _
  | cons first rest inductionHypothesis =>
      obtain ⟨filter, dictionary⟩ := first
      unfold decodeChain
      split
      · cases rest <;> exact .refl _
      · have atFirst : ∀ entries ∈ dictionary, Agree.Holds kind entries := by
          rintro entries rfl
          exact holds filter entries List.mem_cons_self
        refine (carries_parametersOf leads atFirst).bind fun _ _ => ?_
        refine (Carries.refl _).bind fun _ _ => ?_
        exact inductionHypothesis fun filter entries later =>
          holds filter entries (List.mem_cons_of_mem _ later)

end Filter

namespace Stream

open Document Outcome

variable {kind : Object → Prop} {document other : Document} (leads : document.Leads kind other)
variable {stream : Stream}
include leads

/-- The data of a stream is decoded in the same way where objects lead to the same. -/
theorem carries_decode (holds : Agree.Holds kind stream.entries) :
    Carries (stream.decode document) (stream.decode other) :=
  (Filter.carries_chain leads holds).bind fun _ read =>
    Filter.carries_decodeChain leads fun _ _ isFilter =>
      Filter.holds_of_chain leads holds read isFilter

/-- The content of a stream is the same where objects lead to the same. -/
theorem carries_content (holds : Agree.Holds kind stream.entries) :
    Carries (stream.content document) (stream.content other) :=
  (carries_decode leads holds).bind fun _ _ => .refl _

end Stream
end Monochrome
