import Monochrome.Proofs.Object.Resolving
import Monochrome.Proofs.Text.Utf8
import Monochrome.Resources.Basic

/-!
# Resources after one was replaced

Replacing a resource changes the one value that it stands for, be it an object of its own, an entry
of a category that is an object, or an entry of a category inside the resource dictionary.  Every
other name of the category stands for what it stood for, unless it shares that object.
-/

namespace Monochrome

/-- Whether an object is a dictionary. -/
def Object.isDictionary : Object → Bool
  | .dictionary _ => true
  | _ => false

namespace Document

/-- A dictionary that is fetched is stored under the number that is told with it. -/
theorem fetchStoredDictionary_eq_ok {document : Document} {target location : ObjectId}
    {entries : Dictionary} (done : document.fetchStoredDictionary target = .ok (location, entries)) :
    document.fetchWithId target = .ok (location, .dictionary entries) ∧
      document.find? location = some (.dictionary entries) := by
  simp only [fetchStoredDictionary, Outcome.bind_eq_ok, Outcome.pure_eq_ok] at done
  obtain ⟨⟨place, object⟩, fetched, found, asDictionary, same⟩ := done
  obtain ⟨rfl, rfl⟩ := Prod.mk.inj same
  cases object <;> simp [Object.asDictionary] at asDictionary
  subst asDictionary
  exact ⟨fetched, (fetchWithId_eq_ok fetched).2⟩

/-- A dictionary to which a number leads is fetched with the number under which it is stored. -/
theorem fetchStoredDictionary_of_fetchWithId {document : Document} {target location : ObjectId}
    {entries : Dictionary}
    (fetched : document.fetchWithId target = .ok (location, .dictionary entries)) :
    document.fetchStoredDictionary target = .ok (location, entries) :=
  Outcome.bind_eq_ok.2 ⟨_, fetched, rfl⟩

/-- A dictionary that is fetched is what the number leads to. -/
theorem fetchDictionary_eq_ok {document : Document} {target : ObjectId} {entries : Dictionary} :
    document.fetchDictionary target = .ok entries ↔
      ∃ location, document.fetchWithId target = .ok (location, .dictionary entries) := by
  simp only [fetchDictionary, fetch, Outcome.bind_eq_ok, Outcome.pure_eq_ok]
  constructor
  · rintro ⟨object, ⟨⟨location, value⟩, fetched, rfl⟩, asDictionary⟩
    cases value <;> simp [Object.asDictionary] at asDictionary
    subst asDictionary
    exact ⟨location, fetched⟩
  · rintro ⟨location, fetched⟩
    exact ⟨_, ⟨_, fetched, rfl⟩, rfl⟩

end Document

namespace Scope

variable {scope changed : Scope} {kind : ResourceKind}

/-- Whether a category is the given dictionary, stored under a number if it is an object. -/
def HasCategory (scope : Scope) (kind : ResourceKind) (location : Option ObjectId)
    (category : Dictionary) : Prop :=
  ∃ entries entry, scope.dictionary = .ok entries ∧ entries.get? kind.key = some entry ∧
    scope.document.resolveWithId entry = .ok (location, .dictionary category)

/-- A category that is a dictionary is given as such. -/
theorem category?_eq_some {category : Dictionary} :
    scope.category? kind = .ok (some category) ↔ ∃ location, scope.HasCategory kind location category := by
  simp only [category?, Outcome.bind_eq_ok, HasCategory]
  constructor
  · rintro ⟨entries, atEntries, found⟩
    split at found
    · simp [pure, Except.pure] at found
    · rename_i entry atEntry
      simp only [Document.resolve, Outcome.bind_eq_ok, Outcome.pure_eq_ok] at found
      obtain ⟨value, ⟨⟨location, object⟩, resolved, rfl⟩, same⟩ := found
      split at same
      · simp only [Outcome.pure_eq_ok, Option.some.injEq] at same
        subst same
        rename_i atDictionary
        exact ⟨location, entries, entry, atEntries, atEntry, by rw [resolved, ← atDictionary]⟩
      · simp [Outcome.throw_eq_ok] at same
  · rintro ⟨location, entries, entry, atEntries, atEntry, resolved⟩
    refine ⟨entries, atEntries, ?_⟩
    simp [atEntry, Document.resolve, resolved, pure, Except.pure, bind, Except.bind]

/-- A resource is found in its category, behind a chain of references. -/
theorem lookup?_eq_some {name : String} {entry : Entry} :
    scope.lookup? kind name = .ok (some entry) ↔
      ∃ location category object, scope.HasCategory kind location category ∧
        category.find? (Text.toBytes name) = some object ∧
          scope.document.resolveWithId object = .ok (entry.location, entry.value) := by
  simp only [lookup?, Outcome.bind_eq_ok]
  constructor
  · rintro ⟨category, atCategory, found⟩
    cases category with
    | none => simp [pure, Except.pure] at found
    | some category =>
        obtain ⟨location, hasCategory⟩ := category?_eq_some.1 atCategory
        simp only [Option.bind_some] at found
        split at found
        · simp [pure, Except.pure] at found
        · rename_i object atName
          simp only [Outcome.bind_eq_ok, Outcome.pure_eq_ok, Option.some.injEq] at found
          obtain ⟨⟨place, value⟩, resolved, rfl⟩ := found
          exact ⟨location, category, object, hasCategory, atName, resolved⟩
  · rintro ⟨location, category, object, hasCategory, atName, resolved⟩
    refine ⟨some category, category?_eq_some.2 ⟨location, hasCategory⟩, ?_⟩
    simp [atName, resolved, pure, Except.pure, bind, Except.bind]

/-- A resource that must be there is one that is found. -/
theorem lookup_eq_ok {name : String} {entry : Entry} :
    scope.lookup kind name = .ok entry ↔ scope.lookup? kind name = .ok (some entry) := by
  simp only [lookup, Outcome.bind_eq_ok]
  constructor
  · rintro ⟨found, atName, same⟩
    cases found with
    | none => exact (Outcome.throw_eq_ok.1 same).elim
    | some found => rwa [← Outcome.pure_eq_ok.1 same]
  · exact fun atName => ⟨some entry, atName, rfl⟩

/-- The value of a resource stands for itself. -/
theorem isReference_of_lookup? {name : String} {entry : Entry}
    (found : scope.lookup? kind name = .ok (some entry)) : entry.value.isReference = false := by
  obtain ⟨_, _, _, _, _, resolved⟩ := lookup?_eq_some.1 found
  exact Document.isReference_of_resolveWithId resolved

/-- The number of the object that a category is. -/
theorem HasCategory.categoryLocation? {location : Option ObjectId} {category : Dictionary}
    (hasCategory : scope.HasCategory kind location category) :
    scope.categoryLocation? kind = .ok location := by
  obtain ⟨entries, entry, atEntries, atEntry, resolved⟩ := hasCategory
  simp only [Scope.categoryLocation?, atEntries]
  obtain ⟨_, ⟨isValue, rfl, _⟩ | ⟨isReference, target, rfl, _⟩⟩ :=
    Document.followChain_eq_ok resolved
  · cases entry <;> simp_all [Object.isReference, pure, Except.pure, bind, Except.bind]
  · cases entry <;> simp [Object.isReference] at isReference
    simp [atEntry, resolved, pure, Except.pure, bind, Except.bind]

/-- A category is only one dictionary. -/
theorem HasCategory.unique {location other : Option ObjectId} {category another : Dictionary}
    (first : scope.HasCategory kind location category)
    (second : scope.HasCategory kind other another) : location = other ∧ category = another := by
  obtain ⟨entries, entry, atEntries, atEntry, resolved⟩ := first
  obtain ⟨entries', entry', atEntries', atEntry', resolved'⟩ := second
  rw [atEntries] at atEntries'
  obtain rfl := Except.ok.inj atEntries'
  rw [atEntry] at atEntry'
  obtain rfl := Option.some.inj atEntry'
  rw [resolved] at resolved'
  obtain ⟨rfl, same⟩ := Prod.mk.inj (Except.ok.inj resolved')
  exact ⟨rfl, Object.dictionary.inj same⟩

/-- A category that is part of the resource dictionary stands in it as a dictionary. -/
theorem HasCategory.inline {category : Dictionary} (hasCategory : scope.HasCategory kind none category) :
    ∃ entries, scope.dictionary = .ok entries ∧
      entries.get? kind.key = some (.dictionary category) := by
  obtain ⟨entries, entry, atEntries, atEntry, resolved⟩ := hasCategory
  obtain ⟨_, ⟨_, _, rfl⟩ | ⟨_, target, none, _⟩⟩ := Document.followChain_eq_ok resolved
  · exact ⟨entries, atEntries, atEntry⟩
  · simp at none

/-- A category that is an object is stored as a dictionary. -/
theorem HasCategory.stored {owner : ObjectId} {category : Dictionary}
    (hasCategory : scope.HasCategory kind (some owner) category) :
    scope.document.find? owner = some (.dictionary category) := by
  obtain ⟨_, _, _, _, resolved⟩ := hasCategory
  exact Document.find?_of_resolveWithId resolved

/-- The scope after a category that is part of the resource dictionary has a value under a name. -/
inductive EntersInDictionary (scope : Scope) (kind : ResourceKind) (category : Dictionary) :
    Scope → Prop
  /-- The resource dictionary is an object. -/
  | stored (target location : ObjectId) (entries : Dictionary)
      (isIndirect : scope.resources = .indirect target)
      (fetched : scope.document.fetchWithId target = .ok (location, .dictionary entries)) :
      EntersInDictionary scope kind category
        { scope with
          document := scope.document.store location
            (.dictionary (entries.set kind.key (.dictionary category))) }
  /-- The resource dictionary belongs to whoever reads it. -/
  | owned (entries : Dictionary) (isDirect : scope.resources = .direct entries) :
      EntersInDictionary scope kind category
        { scope with resources := .direct (entries.set kind.key (.dictionary category)) }

/-- Replacing a resource stores a value in its object, or a category that is an object with a value
under its name, or else enters such a category in the resource dictionary. -/
theorem replace_cases {name : String} {value : Object} {entry : Entry}
    {location : Option ObjectId} {category : Dictionary}
    (done : scope.replace kind name value = .ok changed)
    (found : scope.lookup? kind name = .ok (some entry))
    (hasCategory : scope.HasCategory kind location category) :
    (∃ target, entry.location = some target ∧
      changed = { scope with document := scope.document.store target value }) ∨
    (entry.location = none ∧ ∃ owner, location = some owner ∧
      changed = { scope with
        document := scope.document.store owner
          (.dictionary (category.insert (Text.toBytes name) value)) }) ∨
    (entry.location = none ∧ location = none ∧
      EntersInDictionary scope kind (category.insert (Text.toBytes name) value) changed) := by
  simp only [replace, Outcome.bind_eq_ok, found, Except.ok.injEq] at done
  obtain ⟨_, rfl, done⟩ := done
  simp only [Option.bind_some] at done
  split at done
  · rename_i target atTarget
    exact Or.inl ⟨target, atTarget, (Outcome.pure_eq_ok.1 done).symm⟩
  · rename_i atNone
    simp only [Outcome.bind_eq_ok, hasCategory.categoryLocation?, Except.ok.injEq] at done
    obtain ⟨_, rfl, done⟩ := done
    split at done
    · rename_i owner
      have stored := hasCategory.stored
      simp only [replaceInObject, Outcome.bind_eq_ok, Outcome.pure_eq_ok] at done
      obtain ⟨⟨place, entries⟩, fetched, rfl⟩ := done
      obtain ⟨fetched, _⟩ := Document.fetchStoredDictionary_eq_ok fetched
      rw [Document.fetchWithId_of_value stored rfl] at fetched
      obtain ⟨rfl, same⟩ := Prod.mk.inj (Except.ok.inj fetched)
      obtain rfl := Object.dictionary.inj same
      exact Or.inr (Or.inl ⟨atNone, owner, rfl, rfl⟩)
    · refine Or.inr (Or.inr ⟨atNone, rfl, ?_⟩)
      obtain ⟨entries, atEntries, inline⟩ := hasCategory.inline
      unfold replaceInDictionary at done
      unfold Scope.dictionary at atEntries
      split at done
      · rename_i target isIndirect
        simp only [isIndirect] at atEntries
        simp only [Outcome.bind_eq_ok, Outcome.pure_eq_ok] at done
        obtain ⟨⟨place, others⟩, fetched, rfl⟩ := done
        obtain ⟨fetched, _⟩ := Document.fetchStoredDictionary_eq_ok fetched
        obtain ⟨again, fetchedAgain⟩ := Document.fetchDictionary_eq_ok.1 atEntries
        rw [fetched] at fetchedAgain
        obtain ⟨rfl, same⟩ := Prod.mk.inj (Except.ok.inj fetchedAgain)
        obtain rfl := Object.dictionary.inj same
        simp only [enter, inline]
        exact .stored target place others isIndirect fetched
      · rename_i others isDirect
        simp only [isDirect, Except.ok.injEq] at atEntries
        subst atEntries
        simp only [Outcome.pure_eq_ok] at done
        subst done
        simp only [enter, inline]
        exact .owned others isDirect

/-- A value that is entered in a category that has it already changes nothing. -/
theorem enter_self {entries category : Dictionary} {name : String} {value : Object}
    (inline : entries.get? kind.key = some (.dictionary category))
    (found : category.find? (Text.toBytes name) = some value) :
    enter entries kind name value = entries := by
  unfold enter
  simp only [inline, Table.insert_self found]
  exact Table.insert_self inline

/-- Replacing a resource by what it is succeeds and changes nothing. -/
theorem replace_self {name : String} {entry : Entry}
    (found : scope.lookup? kind name = .ok (some entry)) :
    scope.replace kind name entry.value = .ok scope := by
  obtain ⟨location, category, object, hasCategory, atName, resolved⟩ := lookup?_eq_some.1 found
  refine Outcome.bind_eq_ok.2 ⟨_, found, ?_⟩
  dsimp only [Option.bind_some]
  obtain ⟨_, ⟨_, none, isObject⟩ | ⟨_, target, atTarget, stored⟩⟩ :=
    Document.followChain_eq_ok resolved
  · rw [none, isObject]
    refine Outcome.bind_eq_ok.2 ⟨_, hasCategory.categoryLocation?, ?_⟩
    cases location with
    | some owner =>
        have fetched := Document.fetchWithId_of_value hasCategory.stored rfl
        refine Outcome.bind_eq_ok.2
          ⟨_, Document.fetchStoredDictionary_of_fetchWithId fetched, ?_⟩
        rw [Outcome.pure_eq_ok, Table.insert_self atName, Document.store_self hasCategory.stored]
    | none =>
        obtain ⟨entries, atEntries, inline⟩ := hasCategory.inline
        dsimp only
        unfold replaceInDictionary
        unfold Scope.dictionary at atEntries
        split
        · rename_i target isIndirect
          rw [isIndirect] at atEntries
          obtain ⟨place, fetched⟩ := Document.fetchDictionary_eq_ok.1 atEntries
          refine Outcome.bind_eq_ok.2
            ⟨_, Document.fetchStoredDictionary_of_fetchWithId fetched, ?_⟩
          rw [Outcome.pure_eq_ok, enter_self inline atName,
            Document.store_self (Document.fetchWithId_eq_ok fetched).2]
        · rename_i others isDirect
          rw [isDirect] at atEntries
          obtain rfl := Except.ok.inj atEntries
          rw [Outcome.pure_eq_ok, enter_self inline atName, ← isDirect]
  · rw [atTarget, Outcome.pure_eq_ok, Document.store_self stored]

/-- The resource dictionary after another stored value was replaced by one that is none. -/
theorem dictionary_store {target : ObjectId} {old new : Object} {entries : Dictionary}
    (stored : scope.document.find? target = some old) (wasValue : old.isReference = false)
    (isValue : new.isReference = false) (notDictionary : old.isDictionary = false)
    (atEntries : scope.dictionary = .ok entries) :
    ({ scope with document := scope.document.store target new } : Scope).dictionary =
      .ok entries := by
  unfold dictionary at atEntries ⊢
  cases isResources : scope.resources with
  | direct others => simpa [isResources] using atEntries
  | indirect root =>
      simp only [isResources] at atEntries ⊢
      obtain ⟨location, fetched⟩ := Document.fetchDictionary_eq_ok.1 atEntries
      have again := Document.fetchWithId_store stored wasValue isValue fetched
      refine Document.fetchDictionary_eq_ok.2 ⟨location, ?_⟩
      rw [again, Document.seen, if_neg]
      intro same
      obtain rfl := Option.some.inj same
      rw [(Document.fetchWithId_eq_ok fetched).2] at stored
      obtain rfl := Option.some.inj stored
      simp [Object.isDictionary] at notDictionary

/-- A category stays as it is when a stored value is replaced that is no dictionary. -/
theorem HasCategory.store {target : ObjectId} {old new : Object} {location : Option ObjectId}
    {category : Dictionary} (hasCategory : scope.HasCategory kind location category)
    (stored : scope.document.find? target = some old) (wasValue : old.isReference = false)
    (isValue : new.isReference = false) (notDictionary : old.isDictionary = false) :
    ({ scope with document := scope.document.store target new } : Scope).HasCategory kind location
      category := by
  obtain ⟨entries, entry, atEntries, atEntry, resolved⟩ := hasCategory
  have again := Document.resolveWithId_store stored wasValue isValue resolved
  refine ⟨entries, entry, dictionary_store stored wasValue isValue notDictionary atEntries, atEntry, ?_⟩
  rw [again, Document.seen, if_neg]
  rintro rfl
  rw [Document.find?_of_resolveWithId resolved] at stored
  obtain rfl := Option.some.inj stored
  simp [Object.isDictionary] at notDictionary

/-- A category that is an object gets a value under a name that is not its own key in the resource
dictionary. -/
theorem HasCategory.insert {owner : ObjectId} {category : Dictionary} {key : Bytes} {value : Object}
    (hasCategory : scope.HasCategory kind (some owner) category)
    (notItself : ∀ entry, category.find? (Bytes.ascii kind.key) = some entry →
      key = Bytes.ascii kind.key → entry.isReference = false) :
    ({ scope with
        document := scope.document.store owner (.dictionary (category.insert key value)) } :
      Scope).HasCategory kind (some owner) (category.insert key value) := by
  have stored := hasCategory.stored
  obtain ⟨entries, entry, atEntries, atEntry, resolved⟩ := hasCategory
  have isReference : entry.isReference = true := by
    obtain ⟨_, ⟨_, none, _⟩ | ⟨isReference, _⟩⟩ := Document.followChain_eq_ok resolved
    · simp at none
    · exact isReference
  have again := Document.resolveWithId_store stored rfl
    (show Object.isReference (.dictionary (category.insert key value)) = false from rfl) resolved
  rw [Document.seen, if_pos rfl] at again
  cases isResources : scope.resources with
  | direct others =>
      refine ⟨entries, entry, ?_, atEntry, again⟩
      simpa [dictionary, isResources] using atEntries
  | indirect root =>
      simp only [dictionary, isResources] at atEntries
      obtain ⟨location, fetched⟩ := Document.fetchDictionary_eq_ok.1 atEntries
      have fetchedAgain := Document.fetchWithId_store stored rfl
        (show Object.isReference (.dictionary (category.insert key value)) = false from rfl) fetched
      by_cases same : location = owner
      · -- The category is the resource dictionary; its own entry in itself is not replaced.
        subst same
        have isCategory : entries = category := by
          have sameDictionary := (Document.fetchWithId_eq_ok fetched).2
          rw [stored] at sameDictionary
          exact (Object.dictionary.inj (Option.some.inj sameDictionary)).symm
        subst isCategory
        rw [Document.seen, if_pos rfl] at fetchedAgain
        refine ⟨entries.insert key value, entry, ?_, ?_, again⟩
        · simp only [dictionary]
          exact Document.fetchDictionary_eq_ok.2 ⟨_, fetchedAgain⟩
        · have differ : key ≠ Bytes.ascii kind.key := by
            intro same
            have value := notItself entry atEntry same
            rw [isReference] at value
            cases value
          simpa [Dictionary.get?, differ] using atEntry
      · rw [Document.seen, if_neg (by simpa using same)] at fetchedAgain
        refine ⟨entries, entry, ?_, atEntry, again⟩
        simp only [dictionary]
        exact Document.fetchDictionary_eq_ok.2 ⟨_, fetchedAgain⟩

/-- A category that is part of the resource dictionary is replaced there. -/
theorem EntersInDictionary.hasCategory {category : Dictionary}
    (enters : scope.EntersInDictionary kind category changed) :
    changed.HasCategory kind none category := by
  cases enters with
  | stored target location entries isIndirect fetched =>
      have stored := (Document.fetchWithId_eq_ok fetched).2
      have again := Document.fetchWithId_store stored rfl
        (show Object.isReference (.dictionary (entries.set kind.key (.dictionary category))) = false
          from rfl) fetched
      rw [Document.seen, if_pos rfl] at again
      refine ⟨entries.set kind.key (.dictionary category), .dictionary category, ?_, ?_, rfl⟩
      · simp only [dictionary, isIndirect]
        exact Document.fetchDictionary_eq_ok.2 ⟨_, again⟩
      · simp [Dictionary.get?, Dictionary.set]
  | owned entries isDirect =>
      refine ⟨entries.set kind.key (.dictionary category), .dictionary category, rfl, ?_, rfl⟩
      simp [Dictionary.get?, Dictionary.set]

/-- The value of an object that was seen behind a location, after the resource that is stored alone
in an object was replaced. -/
def valueAfter (entry : Entry) (value : Object) (location : Option ObjectId) (seen : Object) :
    Object :=
  if location.isSome ∧ location = entry.location then value else seen

section Replaced

variable {name other : String} {value : Object} {entry otherEntry : Entry}

/-- What an object stands for after a resource was replaced: the new value if it stood for the
resource, and else what it stood for, unless that is a dictionary. -/
theorem resolveWithId_replace
    (done : scope.replace kind name value = .ok changed)
    (found : scope.lookup? kind name = .ok (some entry))
    (isValue : value.isReference = false) {object seen : Object} {location : Option ObjectId}
    (resolved : scope.document.resolveWithId object = .ok (location, seen))
    (seenNotDictionary : seen.isDictionary = false) :
    changed.document.resolveWithId object = .ok (location, valueAfter entry value location seen) := by
  obtain ⟨place, category, own, hasCategory, _, ownResolved⟩ := lookup?_eq_some.1 found
  -- A dictionary in the document that is replaced by another one is not what is seen.
  have beside {owner : ObjectId} {old new : Dictionary}
      (stored : scope.document.find? owner = some (.dictionary old)) (alone : entry.location = none) :
      (scope.document.store owner (.dictionary new)).resolveWithId object =
        .ok (location, valueAfter entry value location seen) := by
    have again := Document.resolveWithId_store stored rfl
      (show Object.isReference (.dictionary new) = false from rfl) resolved
    rw [again, Document.seen, if_neg, valueAfter, if_neg]
    · rw [alone]
      rintro ⟨isSome, none⟩
      simp [none] at isSome
    · rintro rfl
      rw [Document.find?_of_resolveWithId resolved] at stored
      obtain rfl := Option.some.inj stored
      simp [Object.isDictionary] at seenNotDictionary
  rcases replace_cases done found hasCategory with
    ⟨target, atTarget, rfl⟩ | ⟨alone, owner, rfl, rfl⟩ | ⟨alone, rfl, enters⟩
  · rw [atTarget] at ownResolved
    have again := Document.resolveWithId_store (Document.find?_of_resolveWithId ownResolved)
      (Document.isReference_of_resolveWithId ownResolved) isValue resolved
    rw [again, Document.seen, valueAfter, atTarget]
    by_cases same : location = some target <;> simp [same]
  · exact beside hasCategory.stored alone
  · cases enters with
    | stored target root entries isIndirect fetched =>
        exact beside (Document.fetchWithId_eq_ok fetched).2 alone
    | owned entries isDirect =>
        rw [resolved, valueAfter, if_neg]
        rw [alone]
        rintro ⟨isSome, none⟩
        simp [none] at isSome

/-- The category of a replaced resource is where it was, and has the other names that it had. -/
theorem hasCategory_replace {location : Option ObjectId} {category : Dictionary}
    (done : scope.replace kind name value = .ok changed)
    (found : scope.lookup? kind name = .ok (some entry))
    (hasCategory : scope.HasCategory kind location category)
    (notDictionary : entry.value.isDictionary = false)
    (isValue : value.isReference = false) :
    ∃ after, changed.HasCategory kind location after ∧
      ((entry.location.isSome ∧ after = category) ∨
        (entry.location = none ∧ after = category.insert (Text.toBytes name) value)) := by
  obtain ⟨place, same, own, hasSame, atName, ownResolved⟩ := lookup?_eq_some.1 found
  obtain ⟨rfl, rfl⟩ := hasCategory.unique hasSame
  rcases replace_cases done found hasCategory with
    ⟨target, atTarget, rfl⟩ | ⟨alone, owner, rfl, rfl⟩ | ⟨alone, rfl, enters⟩
  · rw [atTarget] at ownResolved
    refine ⟨category, ?_, Or.inl ⟨by simp [atTarget], rfl⟩⟩
    exact hasCategory.store (Document.find?_of_resolveWithId ownResolved)
      (Document.isReference_of_resolveWithId ownResolved) isValue notDictionary
  · refine ⟨_, hasCategory.insert ?_, Or.inr ⟨alone, rfl⟩⟩
    intro itself atKey sameKey
    rw [← sameKey, atName] at atKey
    obtain rfl := Option.some.inj atKey
    rw [alone] at ownResolved
    obtain ⟨_, ⟨isValue, _⟩ | ⟨_, target, none, _⟩⟩ := Document.followChain_eq_ok ownResolved
    · exact isValue
    · simp at none
  · exact ⟨_, enters.hasCategory, Or.inr ⟨alone, rfl⟩⟩

/-- Names are told apart by their bytes. -/
theorem toBytes_injective {first second : String} (same : Text.toBytes first = Text.toBytes second) :
    first = second := by
  rw [← Text.ofBytes_toBytes first, same, Text.ofBytes_toBytes]

/-- After a resource was replaced, its name stands for the new value, and so does every other name
that shares its object; the other names stand for what they stood for. -/
theorem lookup?_replace
    (done : scope.replace kind name value = .ok changed)
    (found : scope.lookup? kind name = .ok (some entry))
    (notDictionary : entry.value.isDictionary = false)
    (isValue : value.isReference = false)
    (otherFound : scope.lookup? kind other = .ok (some otherEntry))
    (otherNotDictionary : otherEntry.value.isDictionary = false) :
    changed.lookup? kind other = .ok (some ⟨otherEntry.location,
      if other = name then value
      else valueAfter entry value otherEntry.location otherEntry.value⟩) := by
  obtain ⟨place, category, object, hasCategory, atOther, resolved⟩ := lookup?_eq_some.1 otherFound
  obtain ⟨after, hasAfter, kept | ⟨alone, rfl⟩⟩ :=
    hasCategory_replace done found hasCategory notDictionary isValue
  · obtain ⟨isSome, rfl⟩ := kept
    have again := resolveWithId_replace done found isValue resolved otherNotDictionary
    refine lookup?_eq_some.2 ⟨place, after, object, hasAfter, atOther, ?_⟩
    rw [again]
    by_cases same : other = name
    · subst same
      rw [found] at otherFound
      obtain rfl := Option.some.inj (Except.ok.inj otherFound)
      simp [valueAfter, isSome]
    · simp [same]
  · by_cases same : other = name
    · subst same
      rw [found] at otherFound
      obtain rfl := Option.some.inj (Except.ok.inj otherFound)
      refine lookup?_eq_some.2 ⟨place, _, value, hasAfter, by simp, ?_⟩
      rw [alone, if_pos rfl]
      exact Document.followChain_of_value isValue
    · have again := resolveWithId_replace done found isValue resolved otherNotDictionary
      have differ : Text.toBytes name ≠ Text.toBytes other :=
        fun sameBytes => same (toBytes_injective sameBytes).symm
      refine lookup?_eq_some.2 ⟨place, _, object, hasAfter, by simpa [differ] using atOther, ?_⟩
      simpa [same] using again

/-- Replacing a resource leaves the resource dictionary where it is. -/
theorem resources_replace
    (done : scope.replace kind name value = .ok changed)
    (found : scope.lookup? kind name = .ok (some entry)) :
    changed.resources = scope.resources ∨
      ∃ before after, scope.resources = .direct before ∧ changed.resources = .direct after := by
  obtain ⟨place, category, _, hasCategory, _, _⟩ := lookup?_eq_some.1 found
  rcases replace_cases done found hasCategory with
    ⟨target, _, rfl⟩ | ⟨_, owner, _, rfl⟩ | ⟨_, _, enters⟩
  · exact Or.inl rfl
  · exact Or.inl rfl
  · cases enters with
    | stored => exact Or.inl rfl
    | owned entries isDirect => exact Or.inr ⟨entries, _, isDirect, rfl⟩

/-- Where a name is stored: in the object of its own, else under its name in its category or in the
resource dictionary, if that is an object. -/
def placeOf (resources : Resources) (category : Option ObjectId) (entry : Option ObjectId)
    (name : String) : Option EntryLocation :=
  match entry, category, resources with
  | some target, _, _ => some (.object target)
  | none, some owner, _ => some (.named owner name)
  | none, none, .indirect owner => some (.named owner name)
  | none, none, .direct _ => none

/-- A resource that is found is stored at its place. -/
theorem location?_eq {location : Option ObjectId} {category : Dictionary}
    (found : scope.lookup? kind name = .ok (some entry))
    (hasCategory : scope.HasCategory kind location category) :
    scope.location? kind name = .ok (placeOf scope.resources location entry.location name) := by
  unfold location?
  rw [found, hasCategory.categoryLocation?]
  cases atEntry : entry.location with
  | some target => simp [atEntry, placeOf, pure, Except.pure, bind, Except.bind]
  | none =>
      cases location with
      | some owner => simp [atEntry, placeOf, pure, Except.pure, bind, Except.bind]
      | none =>
          cases scope.resources <;> simp [atEntry, placeOf, pure, Except.pure, bind, Except.bind]

/-- After a resource was replaced, every name is stored where it was. -/
theorem location?_replace
    (done : scope.replace kind name value = .ok changed)
    (found : scope.lookup? kind name = .ok (some entry))
    (notDictionary : entry.value.isDictionary = false)
    (isValue : value.isReference = false)
    (otherFound : scope.lookup? kind other = .ok (some otherEntry))
    (otherNotDictionary : otherEntry.value.isDictionary = false) :
    changed.location? kind other = scope.location? kind other := by
  obtain ⟨place, category, object, hasCategory, _, _⟩ := lookup?_eq_some.1 otherFound
  obtain ⟨after, hasAfter, _⟩ := hasCategory_replace done found hasCategory notDictionary isValue
  have again := lookup?_replace done found notDictionary isValue otherFound otherNotDictionary
  rw [location?_eq again hasAfter, location?_eq otherFound hasCategory]
  rcases resources_replace done found with same | ⟨before, later, isDirect, staysDirect⟩
  · rw [same]
  · rw [isDirect, staysDirect]
    cases otherEntry.location <;> cases place <;> rfl

/-- Names with the same place are the same or have the same object of their own. -/
theorem eq_of_placeOf {resources : Resources} {category first second : Option ObjectId}
    {place : EntryLocation} (atPlace : placeOf resources category first name = some place)
    (otherAtPlace : placeOf resources category second other = some place) :
    other = name ∨ (second.isSome ∧ second = first) := by
  cases first <;> cases second <;> cases category <;> cases resources <;>
    simp only [placeOf, Option.some.injEq, reduceCtorEq] at atPlace otherAtPlace <;>
    subst atPlace <;> simp_all

/-- Two names that are stored at the same place are the same or share an object. -/
theorem eq_of_location? {place : EntryLocation}
    (found : scope.lookup? kind name = .ok (some entry))
    (otherFound : scope.lookup? kind other = .ok (some otherEntry))
    (atPlace : scope.location? kind name = .ok (some place))
    (otherAtPlace : scope.location? kind other = .ok (some place)) :
    other = name ∨ (otherEntry.location.isSome ∧ otherEntry.location = entry.location) := by
  obtain ⟨_, category, _, hasCategory, _, _⟩ := lookup?_eq_some.1 found
  rw [location?_eq found hasCategory] at atPlace
  rw [location?_eq otherFound hasCategory] at otherAtPlace
  exact eq_of_placeOf (Except.ok.inj atPlace) (Except.ok.inj otherAtPlace)

end Replaced

end Scope
end Monochrome
