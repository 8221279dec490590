import Monochrome.Proofs.Limits
import Monochrome.Proofs.Resources.Replacing

/-!
# Resources as storage cells

A resource is stored in a cell: an object of its own, or a name of a category, which is an object or
a part of the resource dictionary.  Replacing the resource writes this one cell.  Every name that is
stored in it stands for the new value afterwards.  Every other name stands for what it stood for, in
whatever resources it is looked up, unless these use what is written as something else: an object of
its own as a dictionary on the way to the name, or a dictionary that gets an entry as the value of the
name.
-/

namespace Monochrome
namespace Document

variable {document : Document} {target : ObjectId} {old new object value : Object}
  {location : Option ObjectId}

/-- The number under which what an object stands for is stored, if it is stored under one. -/
def locationOf? (document : Document) (object : Object) : Option ObjectId :=
  match document.resolveWithId object with
  | .ok (location, _) => location
  | .error _ => none

/-- The number under which what is reached from a number is stored, if anything is reached. -/
def fetchedAt? (document : Document) (start : ObjectId) : Option ObjectId :=
  match document.fetchWithId start with
  | .ok (location, _) => some location
  | .error _ => none

/-- What an object stands for is stored under the number that is told with it. -/
theorem locationOf?_of_resolveWithId (resolved : document.resolveWithId object = .ok (location, value)) :
    document.locationOf? object = location := by
  rw [locationOf?, resolved]

/-- A value is not stored under a number. -/
theorem locationOf?_of_value (isValue : object.isReference = false) :
    document.locationOf? object = none :=
  locationOf?_of_resolveWithId (followChain_of_value isValue)

/-- An object stands for what is stored under its number. -/
theorem resolveWithId_of_locationOf? (atTarget : document.locationOf? object = some target)
    (stored : document.find? target = some value) :
    document.resolveWithId object = .ok (some target, value) := by
  unfold locationOf? at atTarget
  split at atTarget
  · next location found resolved =>
    subst atTarget
    rw [find?_of_resolveWithId resolved] at stored
    rw [resolved, Option.some.inj stored]
  · cases atTarget

section Store

variable (stored : document.find? target = some old) (wasValue : old.isReference = false)
  (isValue : new.isReference = false)
include stored wasValue isValue

/-- After a value was replaced, what an object stands for is stored where it was. -/
theorem locationOf?_store (object : Object) :
    (document.store target new).locationOf? object = document.locationOf? object := by
  rw [locationOf?, locationOf?, resolveWithId_store_eq stored wasValue isValue]
  cases document.resolveWithId object <;> rfl

/-- After a value was replaced, what is stored elsewhere is reached as before. -/
theorem resolveWithId_store_of_ne (elsewhere : document.locationOf? object ≠ some target) :
    (document.store target new).resolveWithId object = document.resolveWithId object := by
  rw [resolveWithId_store_eq stored wasValue isValue]
  cases resolved : document.resolveWithId object with
  | error fault => rfl
  | ok reached =>
      rw [locationOf?_of_resolveWithId resolved] at elsewhere
      simp [seen, elsewhere]

/-- After a value was replaced, what is reached from a number is stored where it was. -/
theorem fetchedAt?_store (start : ObjectId) :
    (document.store target new).fetchedAt? start = document.fetchedAt? start := by
  rw [fetchedAt?, fetchedAt?, fetchWithId_store_eq stored wasValue isValue]
  cases document.fetchWithId start <;> rfl

/-- After a value was replaced, what is stored elsewhere is fetched as before. -/
theorem fetchWithId_store_of_ne {start : ObjectId}
    (elsewhere : document.fetchedAt? start ≠ some target) :
    (document.store target new).fetchWithId start = document.fetchWithId start := by
  rw [fetchWithId_store_eq stored wasValue isValue]
  unfold fetchedAt? at elsewhere
  cases fetched : document.fetchWithId start with
  | error fault => rfl
  | ok reached =>
      simp only [fetched, ne_eq, Option.some.injEq] at elsewhere
      simp [seen, elsewhere]

end Store
end Document

namespace Scope

variable {scope changed : Scope} {kind other : ResourceKind} {name : String}
  {value old new : Object} {target : ObjectId} {entries category : Dictionary}

/-! ## The way to a name -/

/-- What stands under the key of a category in the resource dictionary. -/
def atCategory (scope : Scope) (kind : ResourceKind) : Outcome (Option Object) :=
  (fun entries => entries.get? kind.key) <$> scope.dictionary

/-- The dictionary of a category that stands for it, if there is one. -/
def readCategory (document : Document) : Option Object → Outcome (Option Dictionary)
  | none => .ok none
  | some entry => do
    match ← document.resolve entry with
    | .dictionary entries => return some entries
    | _ => throw (.mismatch .resourceCategory)

/-- What stands under a name in a category. -/
def atName (scope : Scope) (kind : ResourceKind) (name : String) : Outcome (Option Object) :=
  (fun category => category.bind (·.find? (Text.toBytes name))) <$> scope.category? kind

/-- The resource that an object stands for. -/
def readEntry (document : Document) : Option Object → Outcome (Option Entry)
  | none => .ok none
  | some entry => do
    let (location, value) ← document.resolveWithId entry
    return some ⟨location, value⟩

/-- A category is what stands under its key. -/
theorem category?_eq (scope : Scope) (kind : ResourceKind) :
    scope.category? kind = scope.atCategory kind >>= readCategory scope.document := by
  unfold category? atCategory
  cases scope.dictionary with
  | error fault => rfl
  | ok entries =>
      simp only [Limited.ok_bind, Except.map_ok]
      cases entries.get? kind.key <;> rfl

/-- A resource is what stands under its name. -/
theorem lookup?_eq (scope : Scope) (kind : ResourceKind) (name : String) :
    scope.lookup? kind name = scope.atName kind name >>= readEntry scope.document := by
  unfold lookup? atName
  cases scope.category? kind with
  | error fault => rfl
  | ok category =>
      simp only [Limited.ok_bind, Except.map_ok]
      cases category.bind (·.find? (Text.toBytes name)) <;> rfl

/-- The number of the object that the resource dictionary is. -/
def root? (scope : Scope) : Option ObjectId :=
  match scope.resources with
  | .indirect start => scope.document.fetchedAt? start
  | .direct _ => none

/-- The number of the object that a category is. -/
def categoryNumber? (scope : Scope) (kind : ResourceKind) : Option ObjectId :=
  match scope.atCategory kind with
  | .ok entry => entry.bind scope.document.locationOf?
  | .error _ => none

/-- The number of the object that a resource is. -/
def number? (scope : Scope) (kind : ResourceKind) (name : String) : Option ObjectId :=
  match scope.atName kind name with
  | .ok entry => entry.bind scope.document.locationOf?
  | .error _ => none

/-- A resource dictionary that is an object is stored under its number. -/
theorem dictionary_of_root? (atRoot : scope.root? = some target)
    (stored : scope.document.find? target = some (.dictionary entries)) :
    scope.dictionary = .ok entries := by
  unfold root? Document.fetchedAt? at atRoot
  split at atRoot
  · next start isIndirect =>
    split at atRoot
    · next location found fetched =>
      obtain rfl := Option.some.inj atRoot
      rw [(Document.fetchWithId_eq_ok fetched).2] at stored
      obtain rfl := Option.some.inj stored
      rw [dictionary, isIndirect]
      exact Document.fetchDictionary_eq_ok.2 ⟨_, fetched⟩
    · cases atRoot
  · cases atRoot

/-- A category that is an object is stored under its number. -/
theorem category?_of_categoryNumber? (atTarget : scope.categoryNumber? kind = some target)
    (stored : scope.document.find? target = some (.dictionary category)) :
    scope.category? kind = .ok (some category) := by
  unfold categoryNumber? at atTarget
  rw [category?_eq]
  cases under : scope.atCategory kind with
  | error fault => simp [under] at atTarget
  | ok entry =>
      simp only [under] at atTarget
      obtain ⟨object, rfl, atTarget⟩ := Option.bind_eq_some_iff.1 atTarget
      have resolved := Document.resolveWithId_of_locationOf? atTarget stored
      simp [readCategory, Document.resolve, resolved, pure, Except.pure]

/-- A resource that is found has the number of its object. -/
theorem location_of_lookup? {found : Option Entry} (looked : scope.lookup? kind name = .ok found) :
    found.bind Entry.location = scope.number? kind name := by
  rw [lookup?_eq, Outcome.bind_eq_ok] at looked
  obtain ⟨entry, under, read⟩ := looked
  rw [number?, under]
  cases entry with
  | none => obtain rfl := Except.ok.inj read; rfl
  | some object =>
      simp only [readEntry, Outcome.bind_eq_ok, Outcome.pure_eq_ok] at read
      obtain ⟨⟨location, value⟩, resolved, rfl⟩ := read
      exact (Document.locationOf?_of_resolveWithId resolved).symm

/-- A resource that is an object is stored under its number. -/
theorem lookup?_of_number? (atTarget : scope.number? kind name = some target)
    (stored : scope.document.find? target = some value) :
    scope.lookup? kind name = .ok (some ⟨some target, value⟩) := by
  unfold number? at atTarget
  rw [lookup?_eq]
  cases under : scope.atName kind name with
  | error fault => simp [under] at atTarget
  | ok entry =>
      simp only [under] at atTarget
      obtain ⟨object, rfl, atTarget⟩ := Option.bind_eq_some_iff.1 atTarget
      simp [readEntry, Document.resolveWithId_of_locationOf? atTarget stored]

/-! ## The way after a value was stored -/

/-- The scope with an object in the place of the given number. -/
def storing (scope : Scope) (target : ObjectId) (value : Object) : Scope :=
  { scope with document := scope.document.store target value }

section Storing

variable (stored : scope.document.find? target = some old) (wasValue : old.isReference = false)
  (isValue : new.isReference = false)
include stored wasValue isValue

/-- The resource dictionary is stored where it was. -/
theorem root?_storing : (scope.storing target new).root? = scope.root? := by
  unfold root? storing
  cases scope.resources with
  | direct entries => rfl
  | indirect start => exact Document.fetchedAt?_store stored wasValue isValue start

/-- The resource dictionary is as it was, if another object was replaced. -/
theorem dictionary_storing_of_ne (elsewhere : scope.root? ≠ some target) :
    (scope.storing target new).dictionary = scope.dictionary := by
  unfold root? at elsewhere
  unfold dictionary storing
  cases isResources : scope.resources with
  | direct entries => rfl
  | indirect start =>
      simp only [isResources] at elsewhere
      dsimp only
      rw [Document.fetchDictionary, Document.fetch,
        Document.fetchWithId_store_of_ne stored wasValue isValue elsewhere]
      rfl

/-- What stands under a name is stored where it was, if the same object stands there. -/
theorem number?_storing (same : (scope.storing target new).atName kind name = scope.atName kind name) :
    (scope.storing target new).number? kind name = scope.number? kind name := by
  rw [number?, number?, same]
  cases scope.atName kind name with
  | error fault => rfl
  | ok entry =>
      cases entry with
      | none => rfl
      | some object => exact Document.locationOf?_store stored wasValue isValue object

/-- A category is stored where it was, if the same object stands under its key. -/
theorem categoryNumber?_storing
    (same : (scope.storing target new).atCategory kind = scope.atCategory kind) :
    (scope.storing target new).categoryNumber? kind = scope.categoryNumber? kind := by
  rw [categoryNumber?, categoryNumber?, same]
  cases scope.atCategory kind with
  | error fault => rfl
  | ok entry =>
      cases entry with
      | none => rfl
      | some object => exact Document.locationOf?_store stored wasValue isValue object

/-- A category is as it was, if the same object stands under its key and another one was replaced. -/
theorem category?_storing_of_ne
    (same : (scope.storing target new).atCategory kind = scope.atCategory kind)
    (elsewhere : scope.categoryNumber? kind ≠ some target) :
    (scope.storing target new).category? kind = scope.category? kind := by
  rw [category?_eq, category?_eq, same]
  unfold categoryNumber? at elsewhere
  cases under : scope.atCategory kind with
  | error fault => rfl
  | ok entry =>
      cases entry with
      | none => rfl
      | some object =>
          simp only [under, Option.bind_some] at elsewhere
          have again : (scope.storing target new).document.resolveWithId object =
              scope.document.resolveWithId object :=
            Document.resolveWithId_store_of_ne stored wasValue isValue elsewhere
          simp only [Limited.ok_bind, readCategory, Document.resolve, again]

/-- If the same object stands under a name, it stands for the new value if it is the object that was
replaced, and else for what it stood for. -/
theorem lookup?_storing
    (same : (scope.storing target new).atName kind name = scope.atName kind name) :
    (scope.storing target new).lookup? kind name =
      if scope.number? kind name = some target then .ok (some ⟨some target, new⟩)
      else scope.lookup? kind name := by
  split
  · next atTarget =>
    refine lookup?_of_number? ((number?_storing stored wasValue isValue same).trans atTarget) ?_
    simp [storing]
  · next elsewhere =>
    rw [lookup?_eq, lookup?_eq, same]
    unfold number? at elsewhere
    cases under : scope.atName kind name with
    | error fault => rfl
    | ok entry =>
        cases entry with
        | none => rfl
        | some object =>
            simp only [under, Option.bind_some] at elsewhere
            have again : (scope.storing target new).document.resolveWithId object =
                scope.document.resolveWithId object :=
              Document.resolveWithId_store_of_ne stored wasValue isValue elsewhere
            simp only [Limited.ok_bind, readEntry, again]

end Storing

section Inserting

variable {key : Bytes} {inserted : Object}
  (stored : scope.document.find? target = some (.dictionary entries))
include stored

/-- A resource dictionary that was replaced is the new one. -/
theorem dictionary_storing (atRoot : scope.root? = some target) (after : Dictionary) :
    (scope.storing target (.dictionary after)).dictionary = .ok after :=
  dictionary_of_root? ((root?_storing stored rfl rfl).trans atRoot) (by simp [storing])

/-- The same object stands under the key of a category after a dictionary got an entry, unless it is
the resource dictionary and the entry is that of the category. -/
theorem atCategory_inserting (rootKeeps : scope.root? = some target → key ≠ Bytes.ascii kind.key) :
    (scope.storing target (.dictionary (entries.insert key inserted))).atCategory kind =
      scope.atCategory kind := by
  by_cases atRoot : scope.root? = some target
  · rw [atCategory, atCategory, dictionary_storing stored atRoot, dictionary_of_root? atRoot stored]
    simp [Dictionary.get?, rootKeeps atRoot]
  · rw [atCategory, atCategory, dictionary_storing_of_ne stored rfl rfl atRoot]

/-- A category that got an entry is the one with the entry, if it is still that of its key. -/
theorem category?_inserting (rootKeeps : scope.root? = some target → key ≠ Bytes.ascii kind.key)
    (atTarget : scope.categoryNumber? kind = some target) :
    (scope.storing target (.dictionary (entries.insert key inserted))).category? kind =
      .ok (some (entries.insert key inserted)) := by
  have same : (scope.storing target (.dictionary (entries.insert key inserted))).atCategory kind =
      scope.atCategory kind := atCategory_inserting stored rootKeeps
  exact category?_of_categoryNumber? ((categoryNumber?_storing stored rfl rfl same).trans atTarget)
    (by simp [storing])

/-- The same object stands under a name after a dictionary got an entry, unless the entry is that of
the category in the resource dictionary or that of the name in the category. -/
theorem atName_inserting (rootKeeps : scope.root? = some target → key ≠ Bytes.ascii kind.key)
    (categoryKeeps : scope.categoryNumber? kind = some target → key ≠ Text.toBytes name) :
    (scope.storing target (.dictionary (entries.insert key inserted))).atName kind name =
      scope.atName kind name := by
  by_cases atTarget : scope.categoryNumber? kind = some target
  · rw [atName, atName, category?_inserting stored rootKeeps atTarget,
      category?_of_categoryNumber? atTarget stored]
    simp [categoryKeeps atTarget]
  · rw [atName, atName, category?_storing_of_ne stored rfl rfl
      (atCategory_inserting stored rootKeeps) atTarget]

/-- An object that was entered in a category that is an object stands there under its name. -/
theorem atName_inserting_self (rootKeeps : scope.root? = some target → key ≠ Bytes.ascii kind.key)
    (atTarget : scope.categoryNumber? kind = some target) (isName : key = Text.toBytes name) :
    (scope.storing target (.dictionary (entries.insert key inserted))).atName kind name =
      .ok (some inserted) := by
  rw [atName, category?_inserting stored rootKeeps atTarget]
  simp [isName]

end Inserting

/-! ## Cells -/

/-- Where a resource is stored. -/
inductive Cell
  /-- In an object of its own. -/
  | object (target : ObjectId)
  /-- Under a name in a category that is an object. -/
  | entry (owner : ObjectId) (name : String)
  /-- Under a name in a category that is part of a resource dictionary, which is an object. -/
  | nested (owner : ObjectId) (kind : ResourceKind) (name : String)
  /-- Under a name in a category of a resource dictionary that belongs to whoever reads it. -/
  | owned (kind : ResourceKind) (name : String)
deriving DecidableEq

/-- The number of an object that is a cell. -/
def Cell.number? : Cell → Option ObjectId
  | .object target => some target
  | _ => none

/-- Whether a cell is in the document. -/
def Cell.isShared : Cell → Bool
  | .owned _ _ => false
  | _ => true

/-- The cell of a resource. -/
def cell (scope : Scope) (kind : ResourceKind) (name : String) : Cell :=
  match scope.number? kind name, scope.categoryNumber? kind, scope.root? with
  | some target, _, _ => .object target
  | none, some owner, _ => .entry owner name
  | none, none, some owner => .nested owner kind name
  | none, none, none => .owned kind name

/-- Whether a name is looked up in what a cell changes, but not as a name that is stored there: in an
object that is its own cell, or else beyond the entry of the cell, or as the dictionary that gets the
entry. -/
def Cell.Crosses (cell : Cell) (scope : Scope) (kind : ResourceKind) (name : String) : Prop :=
  match cell with
  | .object target => scope.root? = some target ∨ scope.categoryNumber? kind = some target
  | .entry owner entered =>
    scope.number? kind name = some owner ∨ (scope.root? = some owner ∧ kind.key = entered)
  | .nested owner entered _ =>
    scope.number? kind name = some owner ∨
      (scope.categoryNumber? kind = some owner ∧ name = entered.key)
  | .owned _ _ => False

/-- The category that gets a value in a resource dictionary of which it is a part. -/
def innerCategory (entries : Dictionary) (kind : ResourceKind) : Dictionary :=
  match entries.get? kind.key with
  | some (.dictionary category) => category
  | _ => Table.empty

/-- Whether a category is part of a resource dictionary or missing in it. -/
def IsInner (entries : Dictionary) (kind : ResourceKind) : Prop :=
  entries.get? kind.key = none ∨ ∃ category, entries.get? kind.key = some (.dictionary category)

/-- What the scope becomes when a value is written to the cell of a resource. -/
inductive Writes (scope : Scope) (kind : ResourceKind) (name : String) (value : Object) :
    Cell → Scope → Prop
  /-- An object is replaced. -/
  | object {target : ObjectId} {old : Object} (stored : scope.document.find? target = some old)
      (wasValue : old.isReference = false) :
      Writes scope kind name value (.object target) (scope.storing target value)
  /-- A category that is an object gets an entry. -/
  | entry {owner : ObjectId} {category : Dictionary}
      (stored : scope.document.find? owner = some (.dictionary category))
      (inPlace : (category.find? (Text.toBytes name)).bind scope.document.locationOf? = none) :
      Writes scope kind name value (.entry owner name)
        (scope.storing owner (.dictionary (category.insert (Text.toBytes name) value)))
  /-- A category that is part of a stored resource dictionary gets an entry. -/
  | nested {owner : ObjectId} {entries : Dictionary}
      (stored : scope.document.find? owner = some (.dictionary entries))
      (isInner : IsInner entries kind)
      (inPlace : ((innerCategory entries kind).find? (Text.toBytes name)).bind
        scope.document.locationOf? = none) :
      Writes scope kind name value (.nested owner kind name)
        (scope.storing owner (.dictionary (enter entries kind name value)))
  /-- A category of a resource dictionary that is not stored gets an entry. -/
  | owned {entries : Dictionary} (isDirect : scope.resources = .direct entries)
      (isInner : IsInner entries kind)
      (inPlace : ((innerCategory entries kind).find? (Text.toBytes name)).bind
        scope.document.locationOf? = none) :
      Writes scope kind name value (.owned kind name)
        { scope with resources := .direct (enter entries kind name value) }

/-- A category that can be read is missing in the resource dictionary, or is a dictionary. -/
theorem category?_cases {found : Option Dictionary} (isCategory : scope.category? kind = .ok found) :
    ∃ entries, scope.dictionary = .ok entries ∧
      ((found = none ∧ entries.get? kind.key = none) ∨
        ∃ location category, found = some category ∧ scope.HasCategory kind location category) := by
  cases found with
  | some category =>
      obtain ⟨location, hasCategory⟩ := category?_eq_some.1 isCategory
      obtain ⟨entries, _, atEntries, _⟩ := id hasCategory
      exact ⟨entries, atEntries, Or.inr ⟨location, category, rfl, hasCategory⟩⟩
  | none =>
      simp only [category?, Outcome.bind_eq_ok] at isCategory
      obtain ⟨entries, atEntries, isCategory⟩ := isCategory
      refine ⟨entries, atEntries, Or.inl ⟨rfl, ?_⟩⟩
      split at isCategory
      · assumption
      · obtain ⟨_, _, isCategory⟩ := Outcome.bind_eq_ok.1 isCategory
        split at isCategory <;> cases isCategory

/-- A category has the number of its object. -/
theorem HasCategory.categoryNumber? {location : Option ObjectId}
    (hasCategory : scope.HasCategory kind location category) :
    scope.categoryNumber? kind = location := by
  obtain ⟨entries, entry, atEntries, atEntry, resolved⟩ := hasCategory
  simp [Scope.categoryNumber?, atCategory, atEntries, atEntry,
    Document.locationOf?_of_resolveWithId resolved]

/-- A category that is no object is part of the resource dictionary or missing in it. -/
theorem isInner_of_categoryNumber? {found : Option Dictionary}
    (atEntries : scope.dictionary = .ok entries) (isCategory : scope.category? kind = .ok found)
    (isPart : scope.categoryNumber? kind = none) : IsInner entries kind := by
  obtain ⟨_, again, ⟨_, missing⟩ | ⟨location, category, _, hasCategory⟩⟩ := category?_cases isCategory
  · obtain rfl := Except.ok.inj (atEntries.symm.trans again)
    exact Or.inl missing
  · obtain rfl := hasCategory.categoryNumber?.symm.trans isPart
    obtain ⟨_, atSame, inline⟩ := hasCategory.inline
    obtain rfl := Except.ok.inj (atEntries.symm.trans atSame)
    exact Or.inr ⟨category, inline⟩

/-- A category that is an object is stored as a dictionary, if it can be read. -/
theorem find?_of_categoryNumber? {found : Option Dictionary}
    (isCategory : scope.category? kind = .ok found)
    (atTarget : scope.categoryNumber? kind = some target) :
    ∃ category, found = some category ∧
      scope.document.find? target = some (.dictionary category) := by
  obtain ⟨_, atEntries, ⟨_, missing⟩ | ⟨location, category, rfl, hasCategory⟩⟩ :=
    category?_cases isCategory
  · simp [categoryNumber?, atCategory, atEntries, missing] at atTarget
  · obtain rfl := hasCategory.categoryNumber?.symm.trans atTarget
    exact ⟨category, rfl, hasCategory.stored⟩

/-- A category is stored where its number tells, if it can be read. -/
theorem categoryLocation?_eq {found : Option Dictionary}
    (isCategory : scope.category? kind = .ok found) :
    scope.categoryLocation? kind = .ok (scope.categoryNumber? kind) := by
  obtain ⟨_, atEntries, ⟨_, missing⟩ | ⟨location, category, _, hasCategory⟩⟩ :=
    category?_cases isCategory
  · simp [categoryLocation?, categoryNumber?, atCategory, atEntries, missing, pure, Except.pure]
  · rw [hasCategory.categoryLocation?, hasCategory.categoryNumber?]

section Inner

variable (atEntries : scope.dictionary = .ok entries) (isInner : IsInner entries kind)
include atEntries isInner

/-- A category that is part of the resource dictionary is no object. -/
theorem categoryNumber?_of_isInner : scope.categoryNumber? kind = none := by
  rw [categoryNumber?, atCategory, atEntries]
  rcases isInner with missing | ⟨category, inline⟩
  · simp [missing]
  · simpa [inline] using Document.locationOf?_of_value rfl

/-- What stands under a name in a category that is part of the resource dictionary. -/
theorem atName_of_isInner (name : String) :
    scope.atName kind name = .ok ((innerCategory entries kind).find? (Text.toBytes name)) := by
  rw [atName, category?_eq, atCategory, atEntries]
  rcases isInner with missing | ⟨category, inline⟩
  · simp [missing, readCategory, innerCategory]
  · have resolved : scope.document.resolve (.dictionary category) = .ok (.dictionary category) :=
      Document.resolve_of_value rfl
    simp [inline, readCategory, innerCategory, resolved, pure, Except.pure]

end Inner

/-- A value is entered in a category of which the resource dictionary gets the changed one. -/
theorem enter_eq (entries : Dictionary) (kind : ResourceKind) (name : String) (value : Object) :
    enter entries kind name value = entries.insert (Bytes.ascii kind.key)
      (.dictionary ((innerCategory entries kind).insert (Text.toBytes name) value)) :=
  rfl

/-- A resource dictionary in which a value was entered has the category as a part. -/
theorem get?_enter (entries : Dictionary) (kind : ResourceKind) (name : String) (value : Object) :
    (enter entries kind name value).get? kind.key =
      some (.dictionary ((innerCategory entries kind).insert (Text.toBytes name) value)) :=
  (Table.find?_insert _ _ _ _).trans (if_pos rfl)

/-- What stands under a name in the category in which a value was entered. -/
theorem atName_of_enter {entered : String}
    (atEntries : scope.dictionary = .ok (enter entries kind entered value)) (name : String) :
    scope.atName kind name =
      .ok (((innerCategory entries kind).insert (Text.toBytes entered) value).find?
        (Text.toBytes name)) := by
  have atKey := get?_enter entries kind entered value
  rw [atName_of_isInner atEntries (Or.inr ⟨_, atKey⟩), innerCategory, atKey]

/-- The category in which a value was entered is no object. -/
theorem categoryNumber?_of_enter {entered : String}
    (atEntries : scope.dictionary = .ok (enter entries kind entered value)) :
    scope.categoryNumber? kind = none :=
  categoryNumber?_of_isInner atEntries (Or.inr ⟨_, get?_enter entries kind entered value⟩)

/-- A value that stands under a name is what the name stands for. -/
theorem lookup?_of_value (under : scope.atName kind name = .ok (some value))
    (isValue : value.isReference = false) : scope.lookup? kind name = .ok (some ⟨none, value⟩) := by
  have resolved : scope.document.resolveWithId value = .ok (none, value) :=
    Document.followChain_of_value isValue
  simp [lookup?_eq, under, readEntry, resolved]

/-- The key of a category is spelled in single bytes. -/
theorem ascii_key (kind : ResourceKind) : Bytes.ascii kind.key = Text.toBytes kind.key := by
  cases kind <;> decide

/-- Categories are told apart by their keys. -/
theorem key_injective (same : Bytes.ascii kind.key = Bytes.ascii other.key) : kind = other := by
  revert same
  cases kind <;> cases other <;> decide

/-- A name that can be looked up has a category that can be read. -/
theorem category?_of_lookup? {found : Option Entry} (looked : scope.lookup? kind name = .ok found) :
    ∃ category, scope.category? kind = .ok category ∧
      scope.atName kind name = .ok (category.bind (·.find? (Text.toBytes name))) := by
  rw [lookup?_eq, Outcome.bind_eq_ok] at looked
  obtain ⟨_, under, _⟩ := looked
  obtain ⟨category, isCategory, _⟩ := Outcome.map_eq_ok.1 under
  exact ⟨category, isCategory, by rw [atName, isCategory]; rfl⟩

/-- A resource dictionary that can be read is an object, or belongs to whoever reads it. -/
theorem dictionary_cases (atEntries : scope.dictionary = .ok entries) :
    (∃ start location, scope.resources = .indirect start ∧ scope.root? = some location ∧
      scope.document.fetchWithId start = .ok (location, .dictionary entries)) ∨
    (scope.resources = .direct entries ∧ scope.root? = none) := by
  unfold dictionary at atEntries
  unfold root?
  cases isResources : scope.resources with
  | direct others =>
      simp only [isResources, Except.ok.injEq] at atEntries
      exact Or.inr ⟨congrArg _ atEntries, rfl⟩
  | indirect start =>
      simp only [isResources] at atEntries
      obtain ⟨location, fetched⟩ := Document.fetchDictionary_eq_ok.1 atEntries
      exact Or.inl ⟨start, location, rfl, by simp [Document.fetchedAt?, fetched], fetched⟩

/-- A name that can be looked up can be replaced, which writes its cell. -/
theorem exists_writes {found : Option Entry} (looked : scope.lookup? kind name = .ok found)
    (value : Object) :
    ∃ changed, scope.replace kind name value = .ok changed ∧
      Writes scope kind name value (scope.cell kind name) changed := by
  obtain ⟨category, isCategory, under⟩ := category?_of_lookup? looked
  obtain ⟨entries, atEntries, _⟩ := category?_cases isCategory
  unfold replace cell
  rw [looked, Limited.ok_bind, location_of_lookup? looked]
  cases ownNumber : scope.number? kind name with
  | some target =>
      obtain ⟨entry, rfl, atTarget⟩ :=
        Option.bind_eq_some_iff.1 ((location_of_lookup? looked).trans ownNumber)
      obtain ⟨_, _, _, _, _, resolved⟩ := lookup?_eq_some.1 looked
      rw [atTarget] at resolved
      exact ⟨_, rfl, .object (Document.find?_of_resolveWithId resolved)
        (Document.isReference_of_resolveWithId resolved)⟩
  | none =>
      rw [number?, under] at ownNumber
      dsimp only at ownNumber ⊢
      rw [categoryLocation?_eq isCategory, Limited.ok_bind]
      cases categoryNumber : scope.categoryNumber? kind with
      | some owner =>
          obtain ⟨category, rfl, stored⟩ := find?_of_categoryNumber? isCategory categoryNumber
          have fetched := Document.fetchStoredDictionary_of_fetchWithId
            (Document.fetchWithId_of_value stored rfl)
          refine ⟨_, ?_, .entry stored ownNumber⟩
          simp only [replaceInObject, fetched, Limited.ok_bind]
          rfl
      | none =>
          have isInner := isInner_of_categoryNumber? atEntries isCategory categoryNumber
          rw [atName_of_isInner atEntries isInner] at under
          rw [← Except.ok.inj under] at ownNumber
          unfold replaceInDictionary
          rcases dictionary_cases atEntries with
            ⟨start, location, isIndirect, atRoot, fetched⟩ | ⟨isDirect, noRoot⟩
          · rw [isIndirect, atRoot]
            have stored := (Document.fetchWithId_eq_ok fetched).2
            refine ⟨_, ?_, .nested stored isInner ownNumber⟩
            simp only [Document.fetchStoredDictionary_of_fetchWithId fetched, Limited.ok_bind]
            rw [← isIndirect]
            rfl
          · rw [isDirect, noRoot]
            exact ⟨_, rfl, .owned isDirect isInner ownNumber⟩

/-! ## Names after a cell was written -/

/-- A name is stored in an object if this is its own. -/
theorem cell_eq_object : scope.cell kind name = .object target ↔ scope.number? kind name = some target := by
  unfold cell
  split <;> simp_all

/-- A name is stored in a category that is an object under itself, if it has no object of its own. -/
theorem cell_eq_entry {owner : ObjectId} {entered : String} :
    scope.cell kind name = .entry owner entered ↔
      scope.number? kind name = none ∧ scope.categoryNumber? kind = some owner ∧ name = entered := by
  unfold cell
  split <;> simp_all

/-- A name is stored in a category of a stored resource dictionary under itself, if neither it nor the
category has an object of its own. -/
theorem cell_eq_nested {owner : ObjectId} {entered : String} :
    scope.cell kind name = .nested owner other entered ↔
      scope.number? kind name = none ∧ scope.categoryNumber? kind = none ∧
        scope.root? = some owner ∧ kind = other ∧ name = entered := by
  unfold cell
  split <;> simp_all

/-- A name is stored in a category of an owned resource dictionary under itself, if nothing on the way
to it is an object. -/
theorem cell_eq_owned {entered : String} :
    scope.cell kind name = .owned other entered ↔
      scope.number? kind name = none ∧ scope.categoryNumber? kind = none ∧
        scope.root? = none ∧ kind = other ∧ name = entered := by
  unfold cell
  split <;> simp_all

/-- After an object was replaced that is no dictionary on the way to a name, the name stands for the
new value if it is stored there. -/
theorem lookup?_storing_object (apart : ¬(Cell.object target).Crosses scope kind name)
    (stored : scope.document.find? target = some old) (wasValue : old.isReference = false)
    (isValue : value.isReference = false) :
    (scope.storing target value).lookup? kind name =
      if scope.cell kind name = .object target then .ok (some ⟨some target, value⟩)
      else scope.lookup? kind name := by
  obtain ⟨notRoot, notCategory⟩ := not_or.1 apart
  have sameCategory : (scope.storing target value).atCategory kind = scope.atCategory kind := by
    rw [atCategory, atCategory, dictionary_storing_of_ne stored wasValue isValue notRoot]
  have sameName : (scope.storing target value).atName kind name = scope.atName kind name := by
    rw [atName, atName,
      category?_storing_of_ne stored wasValue isValue sameCategory notCategory]
  simp only [lookup?_storing stored wasValue isValue sameName, cell_eq_object]

/-- After a category that is an object got an entry, a name stands for the new value if it is stored
there, unless the category itself is the value of the name, or the entry is that of another category. -/
theorem lookup?_storing_entry {owner : ObjectId} {entered : String}
    (apart : ¬(Cell.entry owner entered).Crosses scope kind name)
    (stored : scope.document.find? owner = some (.dictionary category))
    (inPlace : (category.find? (Text.toBytes entered)).bind scope.document.locationOf? = none)
    (isValue : value.isReference = false) :
    (scope.storing owner (.dictionary (category.insert (Text.toBytes entered) value))).lookup?
        kind name =
      if scope.cell kind name = .entry owner entered then .ok (some ⟨none, value⟩)
      else scope.lookup? kind name := by
  obtain ⟨notValue, notKey⟩ := not_or.1 apart
  have rootKeeps (atRoot : scope.root? = some owner) :
      Text.toBytes entered ≠ Bytes.ascii kind.key := by
    rw [ascii_key]
    exact fun same => notKey ⟨atRoot, (toBytes_injective same).symm⟩
  by_cases here : scope.categoryNumber? kind = some owner ∧ name = entered
  · obtain ⟨atOwner, rfl⟩ := here
    have noNumber : scope.number? kind name = none := by
      rw [number?, atName, category?_of_categoryNumber? atOwner stored]
      exact inPlace
    rw [if_pos (cell_eq_entry.2 ⟨noNumber, atOwner, rfl⟩)]
    exact lookup?_of_value (atName_inserting_self stored rootKeeps atOwner rfl) isValue
  · have categoryKeeps (atOwner : scope.categoryNumber? kind = some owner) :
        Text.toBytes entered ≠ Text.toBytes name :=
      fun same => here ⟨atOwner, (toBytes_injective same).symm⟩
    rw [lookup?_storing stored rfl rfl (atName_inserting stored rootKeeps categoryKeeps),
      if_neg notValue, if_neg]
    exact fun isCell => here (cell_eq_entry.1 isCell).2

/-- After a value was entered in the category of a resource dictionary, its name stands for it, and
the others of the category for what they stood for, if this is reached as before. -/
theorem lookup?_of_enter {after : Scope} {entered : String} (atEntries : scope.dictionary = .ok entries)
    (isInner : IsInner entries kind)
    (atChanged : after.dictionary = .ok (enter entries kind entered value))
    (isValue : value.isReference = false)
    (reaches : ∀ object, scope.atName kind name = .ok (some object) →
      after.document.resolveWithId object = scope.document.resolveWithId object) :
    after.lookup? kind name =
      if name = entered then .ok (some ⟨none, value⟩) else scope.lookup? kind name := by
  have under := atName_of_enter atChanged name
  rw [Table.find?_insert] at under
  split
  · next same =>
    subst same
    rw [if_pos rfl] at under
    exact lookup?_of_value under isValue
  · next different =>
    rw [if_neg fun same => different (toBytes_injective same).symm,
      ← atName_of_isInner atEntries isInner name] at under
    rw [lookup?_eq, lookup?_eq, under]
    cases object : scope.atName kind name with
    | error fault => rfl
    | ok found =>
        cases found with
        | none => rfl
        | some found => simp only [Limited.ok_bind, readEntry, reaches found object]

/-- After a category of a stored resource dictionary got an entry, a name stands for the new value if
it is stored there, unless the resource dictionary is the value of the name, or its category is and the
name that of the category that got the entry. -/
theorem lookup?_storing_nested {owner : ObjectId} {entered : String}
    (apart : ¬(Cell.nested owner other entered).Crosses scope kind name)
    (stored : scope.document.find? owner = some (.dictionary entries))
    (isInner : IsInner entries other)
    (inPlace : ((innerCategory entries other).find? (Text.toBytes entered)).bind
      scope.document.locationOf? = none)
    (isValue : value.isReference = false) :
    (scope.storing owner (.dictionary (enter entries other entered value))).lookup? kind name =
      if scope.cell kind name = .nested owner other entered then .ok (some ⟨none, value⟩)
      else scope.lookup? kind name := by
  obtain ⟨notValue, notKey⟩ := not_or.1 apart
  by_cases here : scope.root? = some owner ∧ kind = other
  · obtain ⟨atRoot, rfl⟩ := here
    have atEntries := dictionary_of_root? atRoot stored
    have atChanged := dictionary_storing stored atRoot (enter entries kind entered value)
    have isCell : scope.cell kind name = .nested owner kind entered ↔ name = entered := by
      refine cell_eq_nested.trans ⟨fun isCell => isCell.2.2.2.2, fun same => ?_⟩
      refine ⟨?_, categoryNumber?_of_isInner atEntries isInner, atRoot, rfl, same⟩
      rw [number?, atName_of_isInner atEntries isInner, same]
      exact inPlace
    simp only [isCell]
    refine lookup?_of_enter atEntries isInner atChanged isValue fun object under => ?_
    refine Document.resolveWithId_store_of_ne stored rfl rfl ?_
    simpa [number?, under] using notValue
  · have rootKeeps (atRoot : scope.root? = some owner) :
        Bytes.ascii other.key ≠ Bytes.ascii kind.key :=
      fun same => here ⟨atRoot, (key_injective same).symm⟩
    have categoryKeeps (atOwner : scope.categoryNumber? kind = some owner) :
        Bytes.ascii other.key ≠ Text.toBytes name := by
      rw [ascii_key]
      exact fun same => notKey ⟨atOwner, (toBytes_injective same).symm⟩
    rw [enter_eq, lookup?_storing stored rfl rfl
      (atName_inserting stored rootKeeps categoryKeeps), if_neg notValue, if_neg]
    exact fun isCell => here ⟨(cell_eq_nested.1 isCell).2.2.1, (cell_eq_nested.1 isCell).2.2.2.1⟩

/-- After a category of an owned resource dictionary got an entry, a name stands for the new value if
it is stored there. -/
theorem lookup?_owned {entered : String} (isDirect : scope.resources = .direct entries)
    (isInner : IsInner entries other)
    (inPlace : ((innerCategory entries other).find? (Text.toBytes entered)).bind
      scope.document.locationOf? = none)
    (isValue : value.isReference = false) :
    ({ scope with resources := .direct (enter entries other entered value) } : Scope).lookup?
        kind name =
      if scope.cell kind name = .owned other entered then .ok (some ⟨none, value⟩)
      else scope.lookup? kind name := by
  have atEntries : scope.dictionary = .ok entries := by rw [dictionary, isDirect]
  have noRoot : scope.root? = none := by rw [root?, isDirect]
  by_cases here : kind = other
  · subst here
    have isCell : scope.cell kind name = .owned kind entered ↔ name = entered := by
      refine cell_eq_owned.trans ⟨fun isCell => isCell.2.2.2.2, fun same => ?_⟩
      refine ⟨?_, categoryNumber?_of_isInner atEntries isInner, noRoot, rfl, same⟩
      rw [number?, atName_of_isInner atEntries isInner, same]
      exact inPlace
    simp only [isCell]
    exact lookup?_of_enter atEntries isInner rfl isValue fun _ _ => rfl
  · have sameKey : (enter entries other entered value).get? kind.key = entries.get? kind.key :=
      (Table.find?_insert _ _ _ _).trans (if_neg fun same => here (key_injective same).symm)
    rw [if_neg fun isCell => here (cell_eq_owned.1 isCell).2.2.2.1, lookup?_eq, lookup?_eq, atName,
      atName, category?_eq, category?_eq, atCategory, atCategory, atEntries]
    simp only [dictionary, Except.map_ok, sameKey]

/-- A name is looked up only as one that is stored in its own cell, unless this is an object that is
its resource dictionary or its category as well. -/
theorem not_crosses_cell {found : Option Entry} (looked : scope.lookup? kind name = .ok found)
    (apart : ∀ target, scope.cell kind name = .object target →
      scope.root? ≠ some target ∧ scope.categoryNumber? kind ≠ some target) :
    ¬(scope.cell kind name).Crosses scope kind name := by
  obtain ⟨_, isCategory, under⟩ := category?_of_lookup? looked
  cases isCell : scope.cell kind name with
  | object target => exact not_or.2 (apart target isCell)
  | entry owner entered =>
      obtain ⟨noNumber, atOwner, rfl⟩ := cell_eq_entry.1 isCell
      rintro (isNumber | ⟨atRoot, rfl⟩)
      · rw [noNumber] at isNumber
        cases isNumber
      · -- The category would be the resource dictionary, and the name its own key in there.
        obtain ⟨category, rfl, stored⟩ := find?_of_categoryNumber? isCategory atOwner
        rw [number?, under] at noNumber
        rw [categoryNumber?, atCategory, dictionary_of_root? atRoot stored] at atOwner
        rw [Option.bind_some, ← ascii_key] at noNumber
        exact absurd (noNumber.symm.trans atOwner) (by simp)
  | nested owner other entered =>
      obtain ⟨noNumber, noCategory, _⟩ := cell_eq_nested.1 isCell
      rintro (isNumber | ⟨atOwner, _⟩)
      · rw [noNumber] at isNumber
        cases isNumber
      · rw [noCategory] at atOwner
        cases atOwner
  | owned other entered => exact id

/-- The cell of a name is an object if the name has one of its own. -/
theorem number?_cell (scope : Scope) (kind : ResourceKind) (name : String) :
    (scope.cell kind name).number? = scope.number? kind name := by
  unfold cell
  split <;> simp_all [Cell.number?]

/-- Where a name is stored, if it can be looked up. -/
theorem location?_of_lookup? {found : Option Entry} (looked : scope.lookup? kind name = .ok found) :
    scope.location? kind name =
      .ok (placeOf scope.resources (scope.categoryNumber? kind) (scope.number? kind name) name) := by
  obtain ⟨_, isCategory, _⟩ := category?_of_lookup? looked
  rw [location?, looked, Limited.ok_bind, location_of_lookup? looked]
  cases scope.number? kind name with
  | some target => rfl
  | none =>
      rw [categoryLocation?_eq isCategory]
      cases scope.categoryNumber? kind <;> cases scope.resources <;> rfl

/-- Writing the cell of a name changes what each name stands for that is looked up as one that is
stored, and this to the new value if it is stored in the cell. -/
theorem Writes.lookup? {cell : Cell} (writes : Writes scope kind name value cell changed)
    (isValue : value.isReference = false) {otherName : String}
    (apart : ¬cell.Crosses scope other otherName) :
    changed.lookup? other otherName =
      if scope.cell other otherName = cell then .ok (some ⟨cell.number?, value⟩)
      else scope.lookup? other otherName := by
  cases writes with
  | object stored wasValue => exact lookup?_storing_object apart stored wasValue isValue
  | entry stored inPlace => exact lookup?_storing_entry apart stored inPlace isValue
  | nested stored isInner inPlace => exact lookup?_storing_nested apart stored isInner inPlace isValue
  | owned isDirect isInner inPlace => exact lookup?_owned isDirect isInner inPlace isValue

/-- Writing the cell of a name does the same in other resources of the document, in which nothing
changes if the cell is not in the document. -/
theorem Writes.lookup?_beside {cell : Cell} (writes : Writes scope kind name value cell changed)
    (isValue : value.isReference = false) {others : Resources} {otherName : String}
    (apart : ¬cell.Crosses ⟨scope.document, others⟩ other otherName) :
    (Scope.mk changed.document others).lookup? other otherName =
      if cell.isShared ∧ (Scope.mk scope.document others).cell other otherName = cell then
        .ok (some ⟨cell.number?, value⟩)
      else (Scope.mk scope.document others).lookup? other otherName := by
  simp only [Cell.isShared]
  cases writes with
  | object stored wasValue =>
      simp only [true_and]
      exact (lookup?_storing_object apart stored wasValue isValue :)
  | entry stored inPlace =>
      simp only [true_and]
      exact (lookup?_storing_entry apart stored inPlace isValue :)
  | nested stored isInner inPlace =>
      simp only [true_and]
      exact (lookup?_storing_nested apart stored isInner inPlace isValue :)
  | owned => simp

/-- Writing the cell of a name leaves its category where it is, if the name has no object of its
own. -/
theorem Writes.categoryNumber? {cell : Cell} (writes : Writes scope kind name value cell changed)
    (isCell : scope.cell kind name = cell) (noNumber : scope.number? kind name = none)
    (apart : ¬cell.Crosses scope kind name) :
    changed.categoryNumber? kind = scope.categoryNumber? kind := by
  cases writes with
  | object stored wasValue =>
      rw [cell_eq_object.1 isCell] at noNumber
      cases noNumber
  | entry stored inPlace =>
      refine categoryNumber?_storing stored rfl rfl (atCategory_inserting stored fun atRoot => ?_)
      rw [ascii_key]
      exact fun same => apart (Or.inr ⟨atRoot, (toBytes_injective same).symm⟩)
  | nested stored isInner inPlace =>
      obtain ⟨_, noCategory, atRoot, _⟩ := cell_eq_nested.1 isCell
      rw [noCategory]
      exact categoryNumber?_of_enter (dictionary_storing stored atRoot _)
  | owned isDirect isInner inPlace =>
      rw [(cell_eq_owned.1 isCell).2.1]
      exact categoryNumber?_of_enter rfl

/-- Writing the cell of a name leaves it where it is. -/
theorem Writes.location? {found : Option Entry}
    (writes : Writes scope kind name value (scope.cell kind name) changed)
    (isValue : value.isReference = false) (looked : scope.lookup? kind name = .ok found)
    (apart : ¬(scope.cell kind name).Crosses scope kind name) :
    changed.location? kind name = scope.location? kind name := by
  have again := writes.lookup? isValue apart
  rw [if_pos rfl] at again
  have sameNumber : changed.number? kind name = scope.number? kind name := by
    rw [← location_of_lookup? again, Option.bind_some, number?_cell]
  rw [location?_of_lookup? again, location?_of_lookup? looked, sameNumber]
  cases noNumber : scope.number? kind name with
  | some target => rfl
  | none =>
      rw [writes.categoryNumber? rfl noNumber apart]
      generalize scope.cell kind name = cell at writes
      cases writes with
      | object | entry | nested => rfl
      | owned isDirect => rw [isDirect]; cases scope.categoryNumber? kind <;> rfl

/-- Putting a value in the place of a resource replaces it, or fails and changes nothing. -/
theorem set_eq (scope : Scope) (kind : ResourceKind) (name : String) (value : Object) :
    set kind name value scope =
      match scope.replace kind name value with
      | .ok changed => .ok () changed
      | .error fault => .error fault scope := by
  show (liftM (scope.replace kind name value) >>= EStateM.set : Change Scope PUnit) scope = _
  cases scope.replace kind name value <;> rfl

/-- **Resources behave like storage cells.**  A value can be put in the place of every resource that can
be looked up, also if there is none yet.  Then the name stands for the value and is stored where it was,
unless its cell is an object that is its resource dictionary or its category as well.  Every other name
stands for the value if it is stored in the same cell, and else for what it stood for, in these and in
all other resources of the document, unless it is looked up across the cell. -/
theorem set_cell (scope : Scope) (kind : ResourceKind) (name : String) {value : Object}
    (isValue : value.isReference = false) :
    (∀ fault after, set kind name value scope = .error fault after →
      scope.lookup? kind name = .error fault) ∧
    ∀ changed, set kind name value scope = .ok () changed →
      let cell := scope.cell kind name
      ((∀ target, cell = .object target →
          scope.root? ≠ some target ∧ scope.categoryNumber? kind ≠ some target) →
        changed.lookup? kind name = .ok (some ⟨cell.number?, value⟩) ∧
          changed.location? kind name = scope.location? kind name) ∧
      (∀ otherKind otherName, ¬cell.Crosses scope otherKind otherName →
        changed.lookup? otherKind otherName =
          if scope.cell otherKind otherName = cell then .ok (some ⟨cell.number?, value⟩)
          else scope.lookup? otherKind otherName) ∧
      ∀ others otherKind otherName,
        ¬cell.Crosses ⟨scope.document, others⟩ otherKind otherName →
          (Scope.mk changed.document others).lookup? otherKind otherName =
            if cell.isShared ∧ (Scope.mk scope.document others).cell otherKind otherName = cell then
              .ok (some ⟨cell.number?, value⟩)
            else (Scope.mk scope.document others).lookup? otherKind otherName := by
  rw [set_eq]
  cases looked : scope.lookup? kind name with
  | error reason =>
      have failed : scope.replace kind name value = .error reason := by
        rw [replace, looked, Limited.error_bind]
      simp [failed]
  | ok found =>
      obtain ⟨written, replaced, writes⟩ := exists_writes looked value
      rw [replaced]
      refine ⟨fun fault after failed => (by cases failed), fun changed done => ?_⟩
      obtain rfl : written = changed := (EStateM.Result.ok.inj done).2
      refine ⟨fun notWay => ?_, fun otherKind otherName apart => writes.lookup? isValue apart,
        fun others otherKind otherName apart => writes.lookup?_beside isValue apart⟩
      have apart := not_crosses_cell looked notWay
      refine ⟨?_, writes.location? isValue looked apart⟩
      rw [writes.lookup? isValue apart, if_pos rfl]

/-- Resources with a color space that is an object. -/
def shelf : Scope :=
  let spaces := Object.dictionary (Dictionary.ofEntries [("Cs1", .reference ⟨2, 0⟩)])
  let entries := Dictionary.ofEntries [("ColorSpace", spaces)]
  ⟨.ofObjects [(⟨1, 0⟩, .dictionary entries), (⟨2, 0⟩, .named "DeviceRGB")] Table.empty,
    .indirect ⟨1, 0⟩⟩

/-- The color space is replaced where it is, and a name that is missing stays missing. -/
theorem set_cell_shelf :
    ∃ changed, set .colorSpace "Cs1" (.named "DeviceGray") shelf = .ok () changed ∧
      changed.lookup? .colorSpace "Cs1" = .ok (some ⟨some ⟨2, 0⟩, .named "DeviceGray"⟩) ∧
      changed.location? .colorSpace "Cs1" = .ok (some (.object ⟨2, 0⟩)) ∧
      changed.lookup? .colorSpace "Cs2" = .ok none := by
  have isCell : shelf.cell .colorSpace "Cs1" = .object ⟨2, 0⟩ := by decide +kernel
  have notWay : shelf.root? ≠ some ⟨2, 0⟩ ∧ shelf.categoryNumber? .colorSpace ≠ some ⟨2, 0⟩ := by
    decide +kernel
  have isValue : (Object.named "DeviceGray").isReference = false := rfl
  refine ⟨_, rfl, ?_⟩
  obtain ⟨own, others, _⟩ := (set_cell shelf .colorSpace "Cs1" isValue).2 _ rfl
  simp only [isCell] at own others
  obtain ⟨found, place⟩ := own fun target same => Cell.object.inj same ▸ notWay
  refine ⟨found, place.trans rfl, (others .colorSpace "Cs2" (not_or.2 notWay)).trans ?_⟩
  rw [if_neg (by decide +kernel)]
  rfl

/-- A resource dictionary that is its own category of patterns. -/
def knot : Scope :=
  let spaces := Object.dictionary (Dictionary.ofEntries [("N", .named "DeviceRGB")])
  let entries := Dictionary.ofEntries [("Pattern", .reference ⟨5, 0⟩), ("ColorSpace", spaces)]
  ⟨.ofObjects [(⟨5, 0⟩, .dictionary entries)] Table.empty, .indirect ⟨5, 0⟩⟩

/-- In a resource dictionary that is its own category, a pattern takes the place of the color spaces,
and a color space that is stored in another cell is gone. -/
theorem lookup?_set_knot :
    knot.cell .pattern "ColorSpace" = .entry ⟨5, 0⟩ "ColorSpace" ∧
      knot.cell .colorSpace "N" = .nested ⟨5, 0⟩ .colorSpace "N" ∧
      knot.lookup? .colorSpace "N" = .ok (some ⟨none, .named "DeviceRGB"⟩) ∧
      ∃ changed, set .pattern "ColorSpace" (.dictionary Table.empty) knot = .ok () changed ∧
        changed.lookup? .colorSpace "N" = .ok none := by
  refine ⟨by decide +kernel, by decide +kernel, rfl, _, rfl, rfl⟩

end Scope
end Monochrome
