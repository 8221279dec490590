import Mathlib.Data.Option.Basic
import Mathlib.Order.Defs.PartialOrder
import Monochrome.Proofs.ColorSpace.Agreeing
import Monochrome.Proofs.Conversion.PatternSpaces
import Monochrome.Proofs.Object.Roles

/-!
# A document and what it was

While a document is converted, named pattern spaces in it become gray, and the converter remembers
what they were.  If every object has a single role, each of them is found at the same place in the
document as it is and in the document as it was: either nothing is remembered of the place, and the
same space stands there, or the gray pattern space stands there, and the one that stood there is
remembered.
-/

namespace Monochrome

section Optional

variable {α β : Type} {relation wider : α → β → Prop} {first : Option α} {second : Option β}

/-- Optional values are related in another way as well if it follows for the first one. -/
theorem rel_mono_of_mem (related : Option.Rel relation first second)
    (implies : ∀ one ∈ first, ∀ two, relation one two → wider one two) :
    Option.Rel wider first second := by
  cases related with
  | some related => exact .some (implies _ rfl _ related)
  | none => exact .none

/-- Optional values are related in a wider way as well. -/
theorem rel_mono (related : Option.Rel relation first second)
    (implies : ∀ one two, relation one two → wider one two) : Option.Rel wider first second :=
  rel_mono_of_mem related fun one _ => implies one

/-- What a value is related to is a value. -/
theorem exists_of_rel {two : β} (related : Option.Rel relation first (some two)) :
    ∃ one, first = some one ∧ relation one two := by
  cases related with
  | some related => exact ⟨_, rfl, related⟩

/-- What no value is related to is none. -/
theorem eq_none_of_rel (related : Option.Rel relation first (none : Option β)) : first = none := by
  cases related with
  | none => rfl

end Optional

/-- The pattern spaces that a converter remembers, by their places. -/
abbrev FormerSpaces :=
  Table EntryLocation (ColorSpace Float32 Float)

/-- The object in which a place is. -/
def EntryLocation.owner : EntryLocation → ObjectId
  | object target => target
  | named owner _ => owner

/-- Whether a place is one where color spaces with names stand. -/
def EntryLocation.Fits (role : ObjectId → Role) : EntryLocation → Prop
  | object target => role target = .space
  | named owner _ => role owner = .spaces ∨ role owner = .resources

variable {original document : Document} {former : FormerSpaces} {before now : Object}

/-- What stands at a place where a color space stood.  What is stored nowhere is not remembered. -/
inductive Settled (original : Document) (former : FormerSpaces) (place : Option EntryLocation)
    (before : Object) : Object → Prop
  /-- Nothing is remembered of the place, and the same space stands there. -/
  | kept (notFormer : ∀ location ∈ place, former.find? location = none) :
      Settled original former place before before
  /-- The pattern space that stood there is remembered, and became gray. -/
  | gray (location : EntryLocation) (underlying : ColorSpace Float32 Float)
      (isPlace : place = some location)
      (isFormer : former.find? location = some (.patternOver underlying))
      (isValue : before.isReference = false)
      (read : ColorSpace.read original before = .ok (.patternOver underlying)) :
      Settled original former place before grayPatternSpace

/-- The entries of a category whose names have places, and what they were. -/
def SettledEntries (original : Document) (former : FormerSpaces)
    (place : String → Option EntryLocation) (before now : Dictionary) : Prop :=
  ∀ name, Option.Rel (Settled original former (place name)) (before.find? (Text.toBytes name))
    (now.find? (Text.toBytes name))

/-- A category of color spaces, whose names have places, and what it was. -/
inductive SettledCategory (original : Document) (former : FormerSpaces)
    (place : String → Option EntryLocation) : Object → Object → Prop
  /-- What is no category stays. -/
  | same (object : Object) (notDictionary : object.isDictionary = false) :
      SettledCategory original former place object object
  /-- The entries of a category are settled. -/
  | dictionary (before now : Dictionary) (entries : SettledEntries original former place before now) :
      SettledCategory original former place (.dictionary before) (.dictionary now)

/-- A resource dictionary, and what it was, by its color spaces. -/
inductive SettledResources (original : Document) (former : FormerSpaces)
    (place : String → Option EntryLocation) : Object → Object → Prop
  /-- What is no dictionary stays. -/
  | same (object : Object) (notDictionary : object.isDictionary = false) :
      SettledResources original former place object object
  /-- The category of color spaces is settled. -/
  | dictionary (before now : Dictionary)
      (spaces : Option.Rel (SettledCategory original former place) (before.get? "ColorSpace")
        (now.get? "ColorSpace")) :
      SettledResources original former place (.dictionary before) (.dictionary now)

section Settled

variable {place : Option EntryLocation} {places : String → Option EntryLocation}
variable {location : EntryLocation} {space underlying : ColorSpace Float32 Float}

/-- What is a reference now always was. -/
theorem Settled.eq_of_isReference (settled : Settled original former place before now)
    (isReference : now.isReference = true) : before = now := by
  cases settled with
  | kept => rfl
  | gray => cases isReference

/-- What stands for itself always did. -/
theorem Settled.isValue (settled : Settled original former place before now)
    (isValue : now.isReference = false) : before.isReference = false := by
  cases settled with
  | kept => exact isValue
  | gray _ _ _ _ wasValue => exact wasValue

/-- What is remembered of another place does not matter. -/
theorem Settled.insert (settled : Settled original former place before now)
    (isOther : location ∉ place) :
    Settled original (former.insert location space) place before now := by
  have differ (other : EntryLocation) (isPlace : other ∈ place) : location ≠ other := by
    rintro rfl
    exact isOther isPlace
  cases settled with
  | kept notFormer =>
      refine .kept fun other isPlace => ?_
      rw [Table.find?_insert, if_neg (differ other isPlace)]
      exact notFormer other isPlace
  | gray other underlying isPlace isFormer isValue read =>
      refine .gray other underlying isPlace ?_ isValue read
      rw [Table.find?_insert, if_neg (differ other isPlace)]
      exact isFormer

/-- What is remembered of a place elsewhere does not matter to a category. -/
theorem SettledCategory.insert (settled : SettledCategory original former places before now)
    (isOther : ∀ name, location ∉ places name) :
    SettledCategory original (former.insert location space) places before now := by
  cases settled with
  | same _ notDictionary => exact .same _ notDictionary
  | dictionary _ _ entries =>
      exact .dictionary _ _ fun name =>
        rel_mono (entries name) fun _ _ settled => settled.insert (isOther name)

/-- What is remembered of a place elsewhere does not matter to a resource dictionary. -/
theorem SettledResources.insert (settled : SettledResources original former places before now)
    (isOther : ∀ name, location ∉ places name) :
    SettledResources original (former.insert location space) places before now := by
  cases settled with
  | same _ notDictionary => exact .same _ notDictionary
  | dictionary _ _ spaces =>
      exact .dictionary _ _ (rel_mono spaces fun _ _ settled => settled.insert isOther)

/-- A space that stands at a place of which nothing is remembered always stood there. -/
theorem Settled.eq_of_unknown (settled : Settled original former place before now)
    (unknown : ∀ location ∈ place, former.find? location = none) : before = now := by
  cases settled with
  | kept => rfl
  | gray location _ isPlace isFormer =>
      rw [unknown location isPlace] at isFormer
      cases isFormer

/-- A pattern space in a category becomes gray when it is remembered. -/
theorem SettledCategory.settle {owner : ObjectId} {category : Dictionary} {name : String}
    {value : Object}
    (settled : SettledCategory original former (some <| .named owner ·) before
      (.dictionary category))
    (atName : category.find? (Text.toBytes name) = some value)
    (unknown : former.find? (.named owner name) = none) (isValue : value.isReference = false)
    (read : ColorSpace.read original value = .ok (.patternOver underlying)) :
    SettledCategory original (former.insert (.named owner name) (.patternOver underlying))
      (some <| .named owner ·) before
      (.dictionary (category.insert (Text.toBytes name) grayPatternSpace)) := by
  cases settled with
  | same _ notDictionary => cases notDictionary
  | dictionary was _ entries =>
      refine .dictionary was _ fun other => ?_
      rw [Table.find?_insert]
      by_cases same : other = name
      · subst same
        have related := entries other
        rw [atName] at related
        obtain ⟨old, wasOld, settled⟩ := exists_of_rel related
        obtain rfl := settled.eq_of_unknown (by rintro _ ⟨⟩; exact unknown)
        rw [if_pos rfl, wasOld]
        exact .some (.gray _ underlying rfl (by simp) isValue read)
      · rw [if_neg fun sameBytes => same (Scope.toBytes_injective sameBytes).symm]
        refine rel_mono (entries other) fun _ _ settled => settled.insert ?_
        rintro ⟨⟩
        exact same rfl

/-- A category of which nothing is remembered is what it was. -/
theorem SettledCategory.refl
    (unknown : ∀ name, ∀ location ∈ places name, former.find? location = none) (object : Object) :
    SettledCategory original former places object object := by
  cases object with
  | dictionary entries =>
      refine .dictionary _ _ fun name => ?_
      cases entries.find? (Text.toBytes name) with
      | none => exact .none
      | some value => exact .some (.kept (unknown name))
  | _ => exact .same _ rfl

/-- A resource dictionary of which nothing is remembered is what it was. -/
theorem SettledResources.refl
    (unknown : ∀ name, ∀ location ∈ places name, former.find? location = none) (object : Object) :
    SettledResources original former places object object := by
  cases object with
  | dictionary entries =>
      refine .dictionary _ _ ?_
      cases Dictionary.get? entries "ColorSpace" with
      | none => exact .none
      | some value => exact .some (.refl unknown value)
  | _ => exact .same _ rfl

end Settled

/-- Whether an object of a role can be told from what it was. -/
def Role.isKept : Role → Bool
  | .shared | .node | .resources | .spaces | .space => true
  | .paints | .painted | .loose => false

/-- What may be used in a role that can be told has one. -/
theorem Role.isKept_of_allows {kind other : Role} (isKept : kind.isKept = true)
    (allowed : kind.allows other = true) : other.isKept = true := by
  cases kind <;> cases other <;> first | rfl | contradiction

/-- The roles of the objects of a document, and the document as it was. -/
structure Layout where
  role : ObjectId → Role
  original : Document

namespace Layout

variable {layout : Layout} {target : ObjectId}

/-- An object is a part of content or of color spaces. -/
abbrev IsShared (layout : Layout) (object : Object) : Prop :=
  object.fits layout.role .shared = true

/-- What an object of a role that can be told is, and what it was. -/
def Follows (layout : Layout) (former : FormerSpaces) (target : ObjectId)
    (before now : Object) : Prop :=
  match layout.role target with
  | .space => Settled layout.original former (some (.object target)) before now
  | .spaces => SettledCategory layout.original former (some <| .named target ·) before now
  | .resources => SettledResources layout.original former (some <| .named target ·) before now
  | _ => before = now

/-- What is a reference now always was. -/
theorem Follows.eq_of_isReference (follows : layout.Follows former target before now)
    (isReference : now.isReference = true) : before = now := by
  unfold Follows at follows
  split at follows
  · exact follows.eq_of_isReference isReference
  · cases follows with
    | same => rfl
    | dictionary => cases isReference
  · cases follows with
    | same => rfl
    | dictionary => cases isReference
  · exact follows

/-- What stands for itself always did. -/
theorem Follows.isValue (follows : layout.Follows former target before now)
    (isValue : now.isReference = false) : before.isReference = false := by
  unfold Follows at follows
  split at follows
  · exact follows.isValue isValue
  · cases follows with
    | same => exact isValue
    | dictionary => rfl
  · cases follows with
    | same => exact isValue
    | dictionary => rfl
  · exact follows ▸ isValue

/-- What is remembered of a place in another object does not matter. -/
theorem Follows.insert {location : EntryLocation} {space : ColorSpace Float32 Float}
    (follows : layout.Follows former target before now) (isOther : location.owner ≠ target) :
    layout.Follows (former.insert location space) target before now := by
  have elsewhere (name : String) : location ∉ some (EntryLocation.named target name) := by
    rintro ⟨⟩
    exact isOther rfl
  unfold Follows at follows ⊢
  split
  · rename_i isSpace
    rw [isSpace] at follows
    refine Settled.insert follows ?_
    rintro ⟨⟩
    exact isOther rfl
  · rename_i isSpaces
    rw [isSpaces] at follows
    exact SettledCategory.insert follows elsewhere
  · rename_i isResources
    rw [isResources] at follows
    exact SettledResources.insert follows elsewhere
  · split at follows
    all_goals first | contradiction | exact follows

/-- Whether a document is as it was but for the pattern spaces that are remembered, and what is
painted with. -/
structure Keeps (layout : Layout) (former : FormerSpaces) (document : Document) : Prop where
  fits : document.Fits layout.role
  /-- What is added gets a number that no object of a role has. -/
  known : ∀ target, layout.role target ≠ .loose → target.number ≤ document.highest
  follows : ∀ target, (layout.role target).isKept = true →
    Option.Rel (layout.Follows former target) (layout.original.find? target)
      (document.find? target)
  remembered : ∀ location space, former.find? location = some space → location.Fits layout.role

/-- Whether no pattern space is a part of other color spaces or of content. -/
def OnlyNamed (layout : Layout) : Prop :=
  ∀ target value underlying, layout.role target = .shared →
    layout.original.find? target = some value →
    ColorSpace.read layout.original value ≠ .ok (.patternOver underlying)

/-- Whether resources are a resource dictionary that the original document has, or one that belongs
to whoever reads it. -/
def HasResources (layout : Layout) : Resources → Prop
  | .indirect target =>
    layout.role target = .resources ∧
      ∃ entries, layout.original.find? target = some (.dictionary entries)
  | .direct entries => Dictionary.Fits layout.role .resources entries

namespace Keeps

variable {object : Object} {resources : Resources}

/-- A document that is as it was has the parts of color spaces and content that it had. -/
theorem agree (keeps : layout.Keeps former document) :
    document.Agree layout.IsShared layout.original := by
  refine keeps.fits.agree fun target isShared => ?_
  have follows := keeps.follows target (by rw [isShared]; rfl)
  cases now : document.find? target with
  | none =>
      rw [now] at follows
      exact (eq_none_of_rel follows).symm
  | some value =>
      rw [now] at follows
      obtain ⟨before, was, follows⟩ := exists_of_rel follows
      unfold Follows at follows
      rw [isShared] at follows
      exact (was.trans (congrArg some follows)).symm

/-- An object of a role that can be told was there. -/
theorem stored (keeps : layout.Keeps former document)
    (isKept : (layout.role target).isKept = true) (found : document.find? target = some now) :
    ∃ before, layout.original.find? target = some before ∧
      layout.Follows former target before now := by
  have follows := keeps.follows target isKept
  rw [found] at follows
  exact exists_of_rel follows

/-- A chain of references leads where it always did. -/
theorem followChain (keeps : layout.Keeps former document) (kind : Role)
    (isKept : kind.isKept = true)
    {steps : Nat} {start location : Option ObjectId} (fits : object.fits layout.role kind = true)
    (isReference : object.isReference = true)
    (found : document.followChain steps start object = .ok (location, now)) :
    ∃ target before, location = some target ∧ kind.allows (layout.role target) = true ∧
      layout.original.followChain steps start object = .ok (some target, before) ∧
      layout.Follows former target before now := by
  induction steps generalizing start object with
  | zero => cases found
  | succ steps inductionHypothesis =>
      cases object <;> simp only [Object.isReference, Bool.false_eq_true] at isReference
      rename_i target
      simp only [Document.followChain] at found ⊢
      rw [Object.fits_reference] at fits
      split at found
      · rename_i next isNext
        obtain ⟨before, wasStored, follows⟩ :=
          keeps.stored (Role.isKept_of_allows isKept fits) isNext
        simp only [wasStored]
        cases isChain : next.isReference with
        | true =>
            rw [follows.eq_of_isReference isChain]
            exact inductionHypothesis (keeps.fits.stored fits isNext) isChain found
        | false =>
            cases steps with
            | zero => cases found
            | succ steps =>
                rw [Document.followChain_of_value isChain] at found
                obtain ⟨rfl, rfl⟩ := Prod.mk.inj (Except.ok.inj found)
                exact ⟨target, before, rfl, fits,
                  Document.followChain_of_value (follows.isValue isChain), follows⟩
      · cases found

/-- A resource dictionary that the original document has is stored as a dictionary, and settled. -/
theorem stored_resources (keeps : layout.Keeps former document)
    (has : layout.HasResources (.indirect target)) :
    ∃ before entries : Dictionary, layout.original.find? target = some (.dictionary before) ∧
      document.find? target = some (.dictionary entries) ∧
      Option.Rel (SettledCategory layout.original former (some <| .named target ·))
        (before.get? "ColorSpace") (entries.get? "ColorSpace") := by
  obtain ⟨isResources, before, was⟩ := has
  have follows := keeps.follows target (by rw [isResources]; rfl)
  rw [was] at follows
  cases now : document.find? target with
  | none =>
      rw [now] at follows
      cases follows
  | some object =>
      rw [now] at follows
      cases follows with
      | some follows =>
      unfold Follows at follows
      rw [isResources] at follows
      cases follows with
      | same _ notDictionary => cases notDictionary
      | dictionary _ entries spaces => exact ⟨before, entries, was, rfl, spaces⟩

/-- The resource dictionary is what it was, by its color spaces. -/
theorem settled_dictionary {entries : Dictionary} (keeps : layout.Keeps former document)
    (has : layout.HasResources resources)
    (found : Scope.dictionary ⟨document, resources⟩ = .ok entries) :
    Dictionary.Fits layout.role .resources entries ∧
      ∃ before, Scope.dictionary ⟨layout.original, resources⟩ = .ok before ∧
        Option.Rel (SettledCategory layout.original former (Scope.placeOf resources none none))
          (before.get? "ColorSpace") (entries.get? "ColorSpace") := by
  cases resources with
  | direct others =>
      obtain rfl := Except.ok.inj found
      refine ⟨has, others, rfl, ?_⟩
      cases others.get? "ColorSpace" with
      | none => exact .none
      | some object => exact .some (.refl (by rintro _ _ ⟨⟩) object)
  | indirect target =>
      obtain ⟨before, others, was, now, spaces⟩ := keeps.stored_resources has
      obtain ⟨location, fetched⟩ := Document.fetchDictionary_eq_ok.1 found
      rw [Document.fetchWithId_of_value now rfl] at fetched
      obtain ⟨_, same⟩ := Prod.mk.inj (Except.ok.inj fetched)
      obtain rfl := Object.dictionary.inj same
      have fits := keeps.fits target _ now
      rw [has.1, Object.fits_dictionary_iff] at fits
      exact ⟨fits, before,
        Document.fetchDictionary_eq_ok.2 ⟨target, Document.fetchWithId_of_value was rfl⟩, spaces⟩

section Fits

variable {resource : ResourceKind} {location : Option ObjectId} {category : Dictionary}

/-- A category has the role of its kind, and so has the object that it is. -/
theorem category_fits (keeps : layout.Keeps former document) (has : layout.HasResources resources)
    (found : Scope.HasCategory ⟨document, resources⟩ resource location category) :
    Dictionary.Fits layout.role resource.role category ∧
      ∀ owner ∈ location, resource.role.allows (layout.role owner) = true := by
  obtain ⟨entries, entry, atEntries, atEntry, resolved⟩ := found
  have entryFits := (keeps.settled_dictionary has atEntries).1.find atEntry
  rw [Role.below_key] at entryFits
  obtain ⟨fits, allowed⟩ := keeps.fits.resolveWithId entryFits resolved
  exact ⟨Object.fits_dictionary_iff.1 fits, allowed⟩

/-- A resource has the role of its kind, and so has the object that it is. -/
theorem entry_fits {name : String} {entry : Scope.Entry} (keeps : layout.Keeps former document)
    (has : layout.HasResources resources)
    (found : Scope.lookup? ⟨document, resources⟩ resource name = .ok (some entry)) :
    entry.value.fits layout.role resource.entryRole = true ∧
      ∀ target ∈ entry.location, resource.entryRole.allows (layout.role target) = true := by
  obtain ⟨location, category, object, hasCategory, atName, resolved⟩ := Scope.lookup?_eq_some.1 found
  have objectFits := (keeps.category_fits has hasCategory).1.find atName
  rw [Role.below_role] at objectFits
  exact keeps.fits.resolveWithId objectFits resolved

end Fits

/-- A category of color spaces is where it always was, and its entries are settled. -/
theorem settled_category {location : Option ObjectId} {category : Dictionary}
    (keeps : layout.Keeps former document) (has : layout.HasResources resources)
    (found : Scope.HasCategory ⟨document, resources⟩ .colorSpace location category) :
    ∃ before, Scope.HasCategory ⟨layout.original, resources⟩ .colorSpace location before ∧
      SettledEntries layout.original former (Scope.placeOf resources location none) before
        category := by
  obtain ⟨entries, entry, atEntries, atEntry, resolved⟩ := found
  obtain ⟨fits, others, wereEntries, spaces⟩ := keeps.settled_dictionary has atEntries
  rw [show entries.get? "ColorSpace" = some entry from atEntry] at spaces
  obtain ⟨was, wasEntry, settled⟩ := exists_of_rel spaces
  have entryFits : entry.fits layout.role .spaces = true := fits.find atEntry
  obtain ⟨_, ⟨isValue, rfl, rfl⟩ | ⟨isReference, _⟩⟩ := Document.followChain_eq_ok resolved
  · cases settled with
    | same _ notDictionary => cases notDictionary
    | dictionary before _ settled =>
        exact ⟨before, ⟨others, _, wereEntries, wasEntry, rfl⟩, settled⟩
  · obtain ⟨target, before, rfl, allowed, wasResolved, follows⟩ :=
      keeps.followChain .spaces rfl entryFits isReference resolved
    have same : was = entry := by
      cases settled with
      | same => rfl
      | dictionary => cases isReference
    have isSpaces := Role.eq_of_allows allowed (by decide)
    unfold Follows at follows
    rw [isSpaces] at follows
    cases follows with
    | same _ notDictionary => cases notDictionary
    | dictionary before _ settled =>
        exact ⟨before, ⟨others, _, wereEntries, wasEntry, same ▸ wasResolved⟩, settled⟩

/-- A color space with a name is where it always was, and is settled there. -/
theorem settled_lookup {name : String} {entry : Scope.Entry} (keeps : layout.Keeps former document)
    (has : layout.HasResources resources)
    (found : Scope.lookup? ⟨document, resources⟩ .colorSpace name = .ok (some entry)) :
    ∃ place before, Scope.location? ⟨document, resources⟩ .colorSpace name = .ok place ∧
      Scope.lookup? ⟨layout.original, resources⟩ .colorSpace name =
        .ok (some ⟨entry.location, before⟩) ∧
      Settled layout.original former place before entry.value := by
  obtain ⟨location, category, object, hasCategory, atName, resolved⟩ := Scope.lookup?_eq_some.1 found
  obtain ⟨before, wasCategory, settled⟩ := keeps.settled_category has hasCategory
  have atPlace := Scope.location?_eq found hasCategory
  have related := settled name
  rw [atName] at related
  obtain ⟨was, wasEntry, settledEntry⟩ := exists_of_rel related
  have objectFits := (keeps.category_fits has hasCategory).1.find atName
  rw [Role.below_role] at objectFits
  obtain ⟨_, ⟨isValue, alone, isObject⟩ | ⟨isReference, _⟩⟩ := Document.followChain_eq_ok resolved
  · rw [isObject]
    refine ⟨_, was, atPlace, ?_, by rw [alone]; exact settledEntry⟩
    refine Scope.lookup?_eq_some.2 ⟨location, before, was, wasCategory, wasEntry, ?_⟩
    rw [alone]
    exact Document.followChain_of_value (settledEntry.isValue isValue)
  · obtain rfl := settledEntry.eq_of_isReference isReference
    obtain ⟨target, value, atTarget, allowed, wasResolved, follows⟩ :=
      keeps.followChain .space rfl objectFits isReference resolved
    refine ⟨_, value, atPlace, ?_, ?_⟩
    · refine Scope.lookup?_eq_some.2 ⟨location, before, was, wasCategory, wasEntry, ?_⟩
      rw [atTarget]
      exact wasResolved
    · rw [atTarget]
      unfold Follows at follows
      cases isRole : layout.role target <;> rw [isRole] at allowed <;> try contradiction
      case space =>
        rw [isRole] at follows
        exact follows
      case shared =>
        rw [isRole] at follows
        obtain rfl : value = entry.value := follows
        refine .kept ?_
        rintro _ ⟨⟩
        -- Only color spaces with names are remembered as objects of their own.
        cases isFormer : former.find? (.object target) with
        | none => rfl
        | some space =>
            have isSpace : layout.role target = .space := keeps.remembered _ space isFormer
            rw [isSpace] at isRole
            cases isRole

end Keeps
end Layout
end Monochrome
