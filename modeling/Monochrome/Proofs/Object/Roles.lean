import Mathlib.Data.Option.Basic
import Monochrome.Fault
import Monochrome.Proofs.Object.Agreeing

/-!
# Roles of objects

What a numbered object is used for is its role.  The role tells those of the items and entries of
the object, and which objects it may refer to.  In a document in which every object fits its role,
whatever is reached by following entries and references fits the role that the way to it tells, so
that an object is never reached in two roles.
-/

namespace Monochrome

/-- What an object is used for. -/
inductive Role
  /-- A part of color spaces or of content, which no one changes. -/
  | shared
  /-- A page, or a node above pages. -/
  | node
  /-- A resource dictionary. -/
  | resources
  /-- A category of color spaces. -/
  | spaces
  /-- A color space with a name. -/
  | space
  /-- A category of patterns, shadings or external objects. -/
  | paints
  /-- A pattern, a shading or an external object. -/
  | painted
  /-- Anything else. -/
  | loose
deriving DecidableEq, Repr

/-- The role of a category of resources. -/
def ResourceKind.role : ResourceKind → Role
  | .colorSpace => .spaces
  | _ => .paints

/-- The role of a resource with a name. -/
def ResourceKind.entryRole : ResourceKind → Role
  | .colorSpace => .space
  | _ => .painted

namespace Role

/-- The role of the items of an array. -/
def item : Role → Role
  | shared | space => shared
  | _ => loose

/-- The keys in a dictionary of a role under which the value has a role. -/
def keys : Role → List (String × Role)
  | node => [("Resources", resources), ("Parent", node), ("Contents", shared)]
  | resources =>
    [ResourceKind.colorSpace, .pattern, .shading, .xobject].map fun kind => (kind.key, kind.role)
  | painted => [("Resources", resources), ("Shading", painted)]
  | _ => []

/-- The role of the value of a key. -/
def below (role : Role) (key : Bytes) : Role :=
  match role with
  | shared | space => shared
  | spaces => space
  | paints => painted
  | role =>
    ((role.keys.find? fun (name, _) => Bytes.ascii name = key).map Prod.snd).getD loose

/-- Whether an object that is used in a role may have another one.  A color space with a name may be
a part of other color spaces. -/
def allows (role other : Role) : Bool :=
  role = loose || role = other || (role = space && other = shared)

variable {role first second third : Role}

@[simp] theorem allows_self (role : Role) : role.allows role = true := by
  simp [allows]

@[simp] theorem allows_loose_iff : role.allows loose = true ↔ role = loose := by
  cases role <;> decide

/-- What is allowed below an allowed role is allowed. -/
theorem allows_trans (early : first.allows second = true) (late : second.allows third = true) :
    first.allows third = true := by
  cases first <;> cases second <;> cases third <;> first | rfl | contradiction

/-- Only named color spaces may have another role. -/
theorem eq_of_allows {other : Role} (allowed : role.allows other = true)
    (isStrict : role ≠ loose ∧ role ≠ space) : other = role := by
  cases role <;> cases other <;> first | rfl | contradiction

/-- Below a category stand the resources of its kind. -/
@[simp] theorem below_role (kind : ResourceKind) (key : Bytes) :
    kind.role.below key = kind.entryRole := by
  cases kind <;> rfl

/-- In a resource dictionary stand categories. -/
@[simp] theorem below_key (kind : ResourceKind) :
    resources.below (Bytes.ascii kind.key) = kind.role := by
  cases kind <;> decide

end Role

variable {role : ObjectId → Role} {kind other : Role}

namespace Object

mutual

/-- Whether everything that an object refers to may be used as the object uses it. -/
def fits (role : ObjectId → Role) : Role → Object → Bool
  | kind, .reference target => kind.allows (role target)
  | kind, .array items => fitsItems role kind.item items
  | kind, .dictionary ⟨entries⟩ => fitsEntries role kind entries
  | kind, .stream ⟨entries⟩ _ => fitsEntries role kind entries
  | _, _ => true

/-- Whether the objects in a list fit a role. -/
def fitsItems (role : ObjectId → Role) (kind : Role) : List Object → Bool
  | [] => true
  | item :: rest => item.fits role kind && fitsItems role kind rest

/-- Whether entries fit the role of their dictionary. -/
def fitsEntries (role : ObjectId → Role) (kind : Role) : List (Bytes × Object) → Bool
  | [] => true
  | (key, value) :: rest => value.fits role (kind.below key) && fitsEntries role kind rest

end

end Object

/-- Whether the entries of a dictionary of a role fit their roles. -/
def Dictionary.Fits (role : ObjectId → Role) (kind : Role) (dictionary : Dictionary) : Prop :=
  ∀ entry ∈ dictionary.entries, entry.2.fits role (kind.below entry.1) = true

namespace Object

variable {object value : Object} {items : List Object} {entries : Dictionary} {data : Bytes}

/-- The objects in a list fit if each does. -/
theorem fitsItems_iff :
    fitsItems role kind items = true ↔ ∀ item ∈ items, item.fits role kind = true := by
  induction items with
  | nil => simp [fitsItems]
  | cons item rest inductionHypothesis => simp [fitsItems, inductionHypothesis]

/-- Entries fit if each does. -/
theorem fitsEntries_iff {entries : List (Bytes × Object)} :
    fitsEntries role kind entries = true ↔ Dictionary.Fits role kind ⟨entries⟩ := by
  induction entries with
  | nil => simp [fitsEntries, Dictionary.Fits]
  | cons entry rest inductionHypothesis =>
      simp only [Dictionary.Fits] at inductionHypothesis
      simp [fitsEntries, Dictionary.Fits, inductionHypothesis]

@[simp] theorem fits_reference {target : ObjectId} :
    (reference target).fits role kind = kind.allows (role target) := by
  rw [fits]

theorem fits_array_iff :
    (array items).fits role kind = true ↔ ∀ item ∈ items, item.fits role kind.item = true := by
  rw [fits, fitsItems_iff]

theorem fits_dictionary_iff : (dictionary entries).fits role kind = true ↔ entries.Fits role kind := by
  rw [fits, fitsEntries_iff]

theorem fits_stream_iff : (stream entries data).fits role kind = true ↔ entries.Fits role kind := by
  rw [fits, fitsEntries_iff]

/-- The dictionary of an object fits if the object does. -/
theorem fits_of_entries? (fits : object.fits role kind = true)
    (has : object.entries? = some entries) : entries.Fits role kind := by
  cases object with
  | dictionary others =>
      obtain rfl := Option.some.inj has
      exact fits_dictionary_iff.1 fits
  | stream others data =>
      obtain rfl := Option.some.inj has
      exact fits_stream_iff.1 fits
  | _ => cases has

mutual

/-- Where nothing is asked of an object, every object fits. -/
theorem fits_loose (role : ObjectId → Role) : ∀ object : Object, object.fits role .loose = true
  | .reference _ => rfl
  | .array items => by rw [fits]; exact fitsItems_loose role items
  | .dictionary ⟨entries⟩ => by rw [fits]; exact fitsEntries_loose role entries
  | .stream ⟨entries⟩ _ => by rw [fits]; exact fitsEntries_loose role entries
  | .null | .boolean _ | .integer _ | .real _ | .name _ | .string _ _ => by simp [fits]

/-- Where nothing is asked of a list, all its objects fit. -/
theorem fitsItems_loose (role : ObjectId → Role) : ∀ items, fitsItems role Role.loose.item items = true
  | [] => rfl
  | item :: rest => by
      rw [fitsItems, Bool.and_eq_true]
      exact ⟨fits_loose role item, fitsItems_loose role rest⟩

/-- Where nothing is asked of a dictionary, all its entries fit. -/
theorem fitsEntries_loose (role : ObjectId → Role) : ∀ entries, fitsEntries role .loose entries = true
  | [] => rfl
  | (_, value) :: rest => by
      rw [fitsEntries, Bool.and_eq_true]
      exact ⟨fits_loose role value, fitsEntries_loose role rest⟩

end

/-- A part of color spaces fits where a color space with a name stands. -/
theorem fits_space_of_shared (fits : object.fits role .shared = true) :
    object.fits role .space = true := by
  cases object with
  | reference target =>
      rw [fits_reference] at fits ⊢
      exact Role.allows_trans (by decide) fits
  | array items => rwa [fits_array_iff] at fits ⊢
  | dictionary entries => rwa [fits_dictionary_iff] at fits ⊢
  | stream entries data => rwa [fits_stream_iff] at fits ⊢
  | _ => simp [Object.fits]

/-- A color space with a name that stands for itself is made of parts of color spaces. -/
theorem fits_shared_of_space (fits : object.fits role .space = true)
    (isValue : object.isReference = false) : object.fits role .shared = true := by
  cases object with
  | reference target => cases isValue
  | array items => rwa [fits_array_iff] at fits ⊢
  | dictionary entries => rwa [fits_dictionary_iff] at fits ⊢
  | stream entries data => rwa [fits_stream_iff] at fits ⊢
  | _ => simp [Object.fits]

/-- What fits a role fits where that role is allowed. -/
theorem fits_of_allows (allowed : kind.allows other = true)
    (fits : object.fits role other = true) : object.fits role kind = true := by
  unfold Role.allows at allowed
  simp only [Bool.or_eq_true, Bool.and_eq_true, decide_eq_true_eq] at allowed
  obtain (rfl | rfl) | ⟨rfl, rfl⟩ := allowed
  · exact fits_loose role object
  · exact fits
  · exact fits_space_of_shared fits

section Mono

variable {another : ObjectId → Role}

/-- A role that is allowed stays so when others are given where nothing was asked. -/
theorem allows_mono (same : ∀ target, role target ≠ .loose → another target = role target)
    {target : ObjectId} (allowed : kind.allows (role target) = true) :
    kind.allows (another target) = true := by
  by_cases isLoose : role target = .loose
  · rw [isLoose, Role.allows_loose_iff] at allowed
    rw [allowed]
    rfl
  · rwa [same target isLoose]

mutual

/-- What fits roles also fits when others are given where nothing was asked. -/
theorem fits_mono (same : ∀ target, role target ≠ .loose → another target = role target) :
    ∀ (kind : Role) (object : Object), object.fits role kind = true →
      object.fits another kind = true
  | kind, .reference target, fits => by
      rw [fits_reference] at fits ⊢
      exact allows_mono same fits
  | kind, .array items, fits => by
      rw [Object.fits] at fits ⊢
      exact fitsItems_mono same kind.item items fits
  | kind, .dictionary ⟨entries⟩, fits => by
      rw [Object.fits] at fits ⊢
      exact fitsEntries_mono same kind entries fits
  | kind, .stream ⟨entries⟩ _, fits => by
      rw [Object.fits] at fits ⊢
      exact fitsEntries_mono same kind entries fits
  | kind, .null, _ | kind, .boolean _, _ | kind, .integer _, _ | kind, .real _, _
  | kind, .name _, _ | kind, .string _ _, _ => by simp [Object.fits]

/-- What fits in a list also fits when other roles are given where nothing was asked. -/
theorem fitsItems_mono (same : ∀ target, role target ≠ .loose → another target = role target) :
    ∀ (kind : Role) (items : List Object), fitsItems role kind items = true →
      fitsItems another kind items = true
  | _, [], _ => rfl
  | kind, item :: rest, fits => by
      rw [fitsItems, Bool.and_eq_true] at fits ⊢
      exact ⟨fits_mono same kind item fits.1, fitsItems_mono same kind rest fits.2⟩

/-- What fits in a dictionary also fits when other roles are given where nothing was asked. -/
theorem fitsEntries_mono (same : ∀ target, role target ≠ .loose → another target = role target) :
    ∀ (kind : Role) (entries : List (Bytes × Object)), fitsEntries role kind entries = true →
      fitsEntries another kind entries = true
  | _, [], _ => rfl
  | kind, (key, value) :: rest, fits => by
      rw [fitsEntries, Bool.and_eq_true] at fits ⊢
      exact ⟨fits_mono same (kind.below key) value fits.1, fitsEntries_mono same kind rest fits.2⟩

end

end Mono

end Object

namespace Dictionary.Fits

variable {entries others : Dictionary} {key : Bytes} {value : Object}

/-- The value of a key fits its role. -/
theorem find (fits : Dictionary.Fits role kind entries) (found : entries.find? key = some value) :
    value.fits role (kind.below key) = true :=
  fits _ (Table.mem_of_findIn found)

/-- A value that fits can be inserted. -/
theorem insert (fits : Dictionary.Fits role kind entries)
    (valueFits : value.fits role (kind.below key) = true) :
    Dictionary.Fits role kind (entries.insert key value) := by
  intro entry isEntry
  rcases Table.mem_insert isEntry with rfl | isOld
  · exact valueFits
  · exact fits entry isOld

/-- Entries fit if those with a role stand in a dictionary that fits. -/
theorem mono (fits : Dictionary.Fits role kind entries)
    (within : ∀ entry ∈ others.entries, kind.below entry.1 ≠ .loose → entry ∈ entries.entries) :
    Dictionary.Fits role kind others := by
  intro entry isEntry
  by_cases isLoose : kind.below entry.1 = .loose
  · rw [isLoose]
    exact Object.fits_loose role _
  · exact fits entry (within entry isEntry isLoose)

end Dictionary.Fits

/-- A dictionary without entries fits every role. -/
theorem Dictionary.fits_empty (role : ObjectId → Role) (kind : Role) :
    Dictionary.Fits role kind Table.empty := by
  intro entry isEntry
  cases isEntry

namespace Document

/-- Whether every object of a document fits its role. -/
def Fits (role : ObjectId → Role) (document : Document) : Prop :=
  ∀ target object, document.find? target = some object → object.fits role (role target) = true

variable {document another : Document} {object value : Object} {target : ObjectId}

/-- An object to which a reference leads fits where the reference stands. -/
theorem Fits.stored (fits : document.Fits role) (allowed : kind.allows (role target) = true)
    (found : document.find? target = some object) : object.fits role kind = true :=
  Object.fits_of_allows allowed (fits target object found)

/-- A document still fits after an object was stored that fits its role. -/
theorem Fits.store (fits : document.Fits role)
    (objectFits : object.fits role (role target) = true) :
    (document.store target object).Fits role := by
  intro place stored found
  rw [find?_store] at found
  split at found
  · rename_i same
    obtain rfl := Option.some.inj found
    exact same ▸ objectFits
  · exact fits place stored found

/-- The end of a chain of references fits where the chain begins. -/
theorem Fits.followChain (fits : document.Fits role) {steps : Nat}
    {start location : Option ObjectId} (objectFits : object.fits role kind = true)
    (startFits : ∀ target ∈ start, kind.allows (role target) = true)
    (found : document.followChain steps start object = .ok (location, value)) :
    value.fits role kind = true ∧ ∀ target ∈ location, kind.allows (role target) = true := by
  induction steps generalizing start object with
  | zero => cases found
  | succ steps inductionHypothesis =>
      cases object with
      | reference target =>
          simp only [Document.followChain] at found
          split at found
          · rename_i next isStored
            rw [Object.fits_reference] at objectFits
            refine inductionHypothesis (fits.stored objectFits isStored) ?_ found
            rintro _ ⟨⟩
            exact objectFits
          · cases found
      | _ =>
          obtain ⟨rfl, rfl⟩ := Prod.mk.inj (Except.ok.inj found)
          exact ⟨objectFits, startFits⟩

/-- What an object stands for fits where the object does. -/
theorem Fits.resolveWithId (fits : document.Fits role) {location : Option ObjectId}
    (objectFits : object.fits role kind = true)
    (found : document.resolveWithId object = .ok (location, value)) :
    value.fits role kind = true ∧ ∀ target ∈ location, kind.allows (role target) = true :=
  fits.followChain objectFits (by rintro _ ⟨⟩) found

/-- The object under a number is stored where the role of the number is allowed. -/
theorem Fits.fetchWithId (fits : document.Fits role) {location : ObjectId}
    (allowed : kind.allows (role target) = true)
    (found : document.fetchWithId target = .ok (location, value)) :
    kind.allows (role location) = true := by
  have chain {steps : Nat} {start : ObjectId} {object : Object}
      (startAllowed : kind.allows (role start) = true) (objectFits : object.fits role kind = true)
      (found : document.fetchChain steps start object = .ok (location, value)) :
      kind.allows (role location) = true := by
    induction steps generalizing start object with
    | zero =>
        cases object with
        | reference next =>
            obtain ⟨fewer, _, isZero, _⟩ := fetchChain_reference found
            cases isZero
        | _ =>
            rw [fetchChain_of_value rfl] at found
            obtain ⟨rfl, _⟩ := Prod.mk.inj (Except.ok.inj found)
            exact startAllowed
    | succ steps inductionHypothesis =>
        cases object with
        | reference next =>
            rw [Object.fits_reference] at objectFits
            obtain ⟨fewer, stored, same, isStored, found⟩ := fetchChain_reference found
            obtain rfl := Nat.succ.inj same
            exact inductionHypothesis objectFits (fits.stored objectFits isStored) found
        | _ =>
            rw [fetchChain_of_value rfl] at found
            obtain ⟨rfl, _⟩ := Prod.mk.inj (Except.ok.inj found)
            exact startAllowed
  unfold Document.fetchWithId fetchWithin at found
  split at found
  · exact chain allowed (fits.stored allowed (by assumption)) found
  · cases found

section Same

variable (fits : document.Fits role)
variable (same : ∀ target, kind.allows (role target) = true →
  another.find? target = document.find? target)
include fits same

/-- A chain of references leads to the same if the objects of its role are the same. -/
theorem Fits.followChain_eq {steps : Nat} {start : Option ObjectId}
    (objectFits : object.fits role kind = true) :
    another.followChain steps start object = document.followChain steps start object := by
  induction steps generalizing start object with
  | zero => rfl
  | succ steps inductionHypothesis =>
      cases object with
      | reference target =>
          rw [Object.fits_reference] at objectFits
          simp only [Document.followChain, same target objectFits]
          cases found : document.find? target with
          | none => rfl
          | some next => exact inductionHypothesis (fits.stored objectFits found)
      | _ => rfl

/-- A longer chain of references leads to the same if the objects of its role are the same. -/
theorem Fits.fetchChain_eq {steps : Nat} {start : ObjectId}
    (objectFits : object.fits role kind = true) :
    another.fetchChain steps start object = document.fetchChain steps start object := by
  induction steps generalizing start object with
  | zero =>
      cases object with
      | reference target =>
          rw [Object.fits_reference] at objectFits
          rw [Document.fetchChain.eq_def, Document.fetchChain.eq_def document]
          dsimp only
          rw [same target objectFits]
          cases document.find? target <;> rfl
      | _ => rw [fetchChain_of_value rfl, fetchChain_of_value rfl]
  | succ steps inductionHypothesis =>
      cases object with
      | reference target =>
          rw [Object.fits_reference] at objectFits
          rw [Document.fetchChain.eq_def, Document.fetchChain.eq_def document]
          dsimp only
          rw [same target objectFits]
          cases found : document.find? target with
          | none => rfl
          | some next => exact inductionHypothesis (fits.stored objectFits found)
      | _ => rw [fetchChain_of_value rfl, fetchChain_of_value rfl]

/-- The object under a number is the same if the objects of its role are. -/
theorem Fits.fetchWithId_eq (allowed : kind.allows (role target) = true) :
    another.fetchWithId target = document.fetchWithId target := by
  unfold Document.fetchWithId Document.fetchWithin
  rw [same target allowed]
  cases found : document.find? target with
  | none => rfl
  | some object => exact fits.fetchChain_eq same (fits.stored allowed found)

end Same

/-- Documents that fit their roles agree on the parts of color spaces and content if they have the
same ones. -/
theorem Fits.agree (fits : document.Fits role)
    (same : ∀ target, role target = .shared → document.find? target = another.find? target) :
    document.Agree (fun object => object.fits role .shared = true) another where
  item items item isArray isItem := Object.fits_array_iff.1 isArray item isItem
  entry holder entries key value fitsHolder has found :=
    (Object.fits_of_entries? fitsHolder has).find found
  target target fitsReference := same target (by simpa [Role.allows, eq_comm] using fitsReference)
  stored target value fitsReference found :=
    fits.stored (by simpa using fitsReference) found

end Document
end Monochrome
