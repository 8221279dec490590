import Monochrome.Proofs.Conversion.Keeping
import Monochrome.Proofs.Conversion.Origin

/-!
# A conversion keeps a document as it was

Whatever a conversion does, every object of the document keeps its role, and is what it was but for
the pattern spaces that are remembered.  Painting changes only objects with which is painted, and
their categories; a pattern space becomes gray when it is remembered; and what is added gets a
number of its own.
-/

namespace Monochrome

/-- Whether a step that cannot fail keeps of a document what every addition keeps. -/
def OnlyAdds {α : Type} (step : StateM Document α) : Prop :=
  ∀ holds : Document → Prop,
    (∀ document value, holds document → holds (Document.add value document).2) →
    ∀ document, holds document → holds (step document).2

namespace OnlyAdds

variable {α β : Type}

/-- Nothing is added by a value alone. -/
theorem pure (value : α) : OnlyAdds (pure value) :=
  fun _ _ _ held => held

/-- Steps in sequence add what each of them adds. -/
theorem bind {step : StateM Document α} {next : α → StateM Document β} (first : OnlyAdds step)
    (second : ∀ value, OnlyAdds (next value)) : OnlyAdds (step >>= next) :=
  fun holds adds document held => second _ holds adds _ (first holds adds document held)

end OnlyAdds

/-- Storing a stream of a function only adds. -/
theorem NumericFunction.onlyAdds_addStream (entries : Dictionary) (data : Bytes) :
    OnlyAdds (addStream entries data) :=
  fun _ adds document held => adds document _ held

namespace NumericFunction

mutual

/-- Storing a function only adds. -/
theorem onlyAdds_toObject :
    ∀ function : NumericFunction Float32 Float, OnlyAdds function.toObject
  | sampled bounds table => by
      rw [toObject]
      exact onlyAdds_addStream _ _
  | exponential bounds start finish exponent => by
      rw [toObject]
      exact .pure _
  | stitched bounds parts limits encode => by
      rw [toObject]
      exact (onlyAdds_toObjects parts).bind fun _ => .pure _
  | calculator bounds program => by
      rw [toObject]
      exact onlyAdds_addStream _ _

/-- Storing functions only adds. -/
theorem onlyAdds_toObjects :
    ∀ functions : List (NumericFunction Float32 Float), OnlyAdds (toObjects functions)
  | [] => by
      rw [toObjects]
      exact .pure _
  | function :: rest => by
      rw [toObjects]
      exact (onlyAdds_toObject function).bind fun _ => (onlyAdds_toObjects rest).bind fun _ => .pure _

end

end NumericFunction

/-- Storing a color space only adds. -/
theorem ColorSpace.onlyAdds_toObject (space : ColorSpace Float32 Float) :
    OnlyAdds space.toObject := by
  induction space with
  | indexed base last palette stored => exact stored.bind fun _ => .pure _
  | patternOver underlying stored => exact stored.bind fun _ => .pure _
  | separation colorant alternate tint stored =>
      exact stored.bind fun _ => (NumericFunction.onlyAdds_toObject tint).bind fun _ => .pure _
  | deviceN colorants alternate tint attributes stored =>
      exact stored.bind fun _ => (NumericFunction.onlyAdds_toObject tint).bind fun _ => .pure _
  | _ => exact .pure _

namespace Scope

/-- Replacing a resource stores it in its object, in its category, or in the resource dictionary. -/
inductive Replaces (scope : Scope) (kind : ResourceKind) (name : String) (value : Object) :
    Scope → Prop
  /-- The resource is an object. -/
  | object (entry : Entry) (target : ObjectId)
      (found : scope.lookup? kind name = .ok (some entry)) (isTarget : entry.location = some target) :
      Replaces scope kind name value
        { scope with document := scope.document.store target value }
  /-- The category is an object. -/
  | category (owner : ObjectId) (category : Dictionary)
      (hasCategory : scope.HasCategory kind (some owner) category) :
      Replaces scope kind name value
        { scope with
          document := scope.document.store owner
            (.dictionary (category.insert (Text.toBytes name) value)) }
  /-- The resource dictionary is an object. -/
  | stored (target location : ObjectId) (entries : Dictionary)
      (isIndirect : scope.resources = .indirect target)
      (fetched : scope.document.fetchWithId target = .ok (location, .dictionary entries)) :
      Replaces scope kind name value
        { scope with
          document := scope.document.store location (.dictionary (enter entries kind name value)) }
  /-- The resource dictionary belongs to whoever reads it. -/
  | owned (entries : Dictionary) (isDirect : scope.resources = .direct entries) :
      Replaces scope kind name value
        { scope with resources := .direct (enter entries kind name value) }

variable {scope changed : Scope} {kind : ResourceKind} {name : String} {value : Object}

/-- A category that is an object is a dictionary if it is fetched as one. -/
theorem hasCategory_of_categoryLocation? {owner location : ObjectId} {category : Dictionary}
    (located : scope.categoryLocation? kind = .ok (some owner))
    (fetched : scope.document.fetchWithId owner = .ok (location, .dictionary category)) :
    location = owner ∧ scope.HasCategory kind (some owner) category := by
  simp only [categoryLocation?, Outcome.bind_eq_ok] at located
  obtain ⟨entries, atEntries, located⟩ := located
  split at located
  · rename_i target atKey
    simp only [Outcome.bind_eq_ok, Outcome.pure_eq_ok] at located
    obtain ⟨⟨place, object⟩, resolved, rfl⟩ := located
    have stored := Document.find?_of_resolveWithId resolved
    rw [Document.fetchWithId_of_value stored (Document.isReference_of_resolveWithId resolved)]
      at fetched
    obtain ⟨rfl, rfl⟩ := Prod.mk.inj (Except.ok.inj fetched)
    exact ⟨rfl, entries, _, atEntries, atKey, resolved⟩
  · cases Outcome.pure_eq_ok.1 located

/-- Whatever is replaced is stored in one of these ways. -/
theorem replaces_of_replace (done : scope.replace kind name value = .ok changed) :
    scope.Replaces kind name value changed := by
  simp only [replace, Outcome.bind_eq_ok] at done
  obtain ⟨found, atName, done⟩ := done
  split at done
  · rename_i target isTarget
    obtain ⟨entry, rfl, isTarget⟩ := Option.bind_eq_some_iff.1 isTarget
    obtain rfl := Outcome.pure_eq_ok.1 done
    exact .object entry target atName isTarget
  · simp only [Outcome.bind_eq_ok] at done
    obtain ⟨location, located, done⟩ := done
    cases location with
    | some owner =>
        simp only [replaceInObject, Outcome.bind_eq_ok, Outcome.pure_eq_ok] at done
        obtain ⟨⟨place, category⟩, fetched, rfl⟩ := done
        obtain ⟨rfl, hasCategory⟩ := hasCategory_of_categoryLocation? located
          (Document.fetchStoredDictionary_eq_ok fetched).1
        exact .category _ category hasCategory
    | none =>
        dsimp only [replaceInDictionary] at done
        split at done
        · rename_i target isIndirect
          simp only [Outcome.bind_eq_ok, Outcome.pure_eq_ok] at done
          obtain ⟨⟨place, entries⟩, fetched, rfl⟩ := done
          exact .stored target place entries isIndirect
            (Document.fetchStoredDictionary_eq_ok fetched).1
        · rename_i entries isDirect
          obtain rfl := Outcome.pure_eq_ok.1 done
          exact .owned entries isDirect

/-- A resource that is put in its place is replaced. -/
theorem replace_of_set_eq_ok {done : Unit} (stored : set kind name value scope = .ok done changed) :
    scope.replace kind name value = .ok changed := by
  simp only [set, Change.bind_eq_ok, Change.get_eq_ok, Change.lift_eq_ok, Change.set_eq_ok]
    at stored
  obtain ⟨_, _, ⟨rfl, rfl⟩, _, _, ⟨replaced, rfl⟩, rfl⟩ := stored
  exact replaced

/-- A resource that cannot be put in its place leaves everything as it was. -/
theorem eq_of_set_eq_error {fault : Fault}
    (failed : set kind name value scope = .error fault changed) : changed = scope := by
  have isLifted : set kind name value scope =
      (liftM (scope.replace kind name value) >>= EStateM.set : Change Scope PUnit) scope := rfl
  rw [isLifted] at failed
  cases replaced : scope.replace kind name value with
  | ok after =>
      rw [replaced] at failed
      cases failed
  | error reason =>
      rw [replaced] at failed
      exact (EStateM.Result.error.inj failed).2.symm

end Scope

variable {role : ObjectId → Role}

/-- The gray pattern space fits every role. -/
theorem fits_grayPatternSpace (role : ObjectId → Role) (kind : Role) :
    grayPatternSpace.fits role kind = true :=
  rfl

/-- What is painted with fits that role if it stands for itself and its dictionary fits. -/
theorem fits_painted {value : Object} (isValue : value.isReference = false)
    (fits : ∀ entries, value.entries? = some entries → Dictionary.Fits role .painted entries) :
    value.fits role .painted = true := by
  cases value with
  | reference target => cases isValue
  | array items => exact Object.fits_array_iff.2 fun item _ => Object.fits_loose role item
  | dictionary entries => exact Object.fits_dictionary_iff.2 (fits entries rfl)
  | stream entries data => exact Object.fits_stream_iff.2 (fits entries rfl)
  | _ => rw [Object.fits] <;> simp

/-- A resource dictionary fits after a resource that fits was entered. -/
theorem fits_enter {entries : Dictionary} {kind : ResourceKind} {name : String} {value : Object}
    (fits : Dictionary.Fits role .resources entries)
    (valueFits : value.fits role kind.entryRole = true) :
    Dictionary.Fits role .resources (Scope.enter entries kind name value) := by
  refine fits.insert ?_
  rw [Role.below_key, Object.fits_dictionary_iff]
  refine Dictionary.Fits.insert ?_ (by rw [Role.below_role]; exact valueFits)
  split
  · rename_i category atKey
    have categoryFits := fits.find atKey
    rw [Role.below_key] at categoryFits
    exact Object.fits_dictionary_iff.1 categoryFits
  · exact Dictionary.fits_empty role _

namespace Layout

variable {layout : Layout} {former : FormerSpaces} {document : Document} {target : ObjectId}
variable {object : Object} {resources : Resources}

namespace Keeps

/-- What is added has no role. -/
theorem isLoose_of_highest (keeps : layout.Keeps former document) :
    layout.role ⟨document.highest + 1, 0⟩ = .loose := by
  by_contra hasRole
  exact absurd (keeps.known _ hasRole) (by simp)

/-- An addition leaves everything as it was. -/
theorem add (keeps : layout.Keeps former document) (value : Object) :
    layout.Keeps former (Document.add value document).2 where
  fits := by
    refine keeps.fits.store ?_
    rw [keeps.isLoose_of_highest]
    exact Object.fits_loose _ value
  known target hasRole := Nat.le_succ_of_le (keeps.known target hasRole)
  follows target isKept := by
    show Option.Rel _ _ ((document.store _ value).find? target)
    rw [Document.find?_store, if_neg]
    · exact keeps.follows target isKept
    · rintro rfl
      rw [keeps.isLoose_of_highest] at isKept
      cases isKept
  remembered := keeps.remembered

/-- Storing an object that fits its role, and is what was there but for what is remembered with it,
leaves everything as it was. -/
theorem store_insert {location : EntryLocation} {space : ColorSpace Float32 Float}
    (keeps : layout.Keeps former document) (fits : object.fits layout.role (layout.role target))
    (isOwner : location.owner = target)
    (isPlace : location.Fits layout.role)
    {before : Object} (was : layout.original.find? target = some before)
    (follows : layout.Follows (former.insert location space) target before object) :
    layout.Keeps (former.insert location space) (document.store target object) where
  fits := keeps.fits.store fits
  known := keeps.known
  follows other isKept := by
    rw [Document.find?_store]
    by_cases same : target = other
    · subst same
      rw [if_pos rfl, was]
      exact .some follows
    · rw [if_neg same]
      exact rel_mono (keeps.follows other isKept) fun _ _ follows =>
        follows.insert (by rwa [isOwner])
  remembered place known found := by
    rw [Table.find?_insert] at found
    split at found
    · exact ‹location = place› ▸ isPlace
    · exact keeps.remembered place known found

/-- Storing an object that fits its role, and is what was there, leaves everything as it was. -/
theorem store (keeps : layout.Keeps former document)
    (fits : object.fits layout.role (layout.role target))
    (follows : (layout.role target).isKept = true →
      ∃ before, layout.original.find? target = some before ∧
        layout.Follows former target before object) :
    layout.Keeps former (document.store target object) where
  fits := keeps.fits.store fits
  known := keeps.known
  follows other isKept := by
    rw [Document.find?_store]
    by_cases same : target = other
    · subst same
      obtain ⟨before, was, follows⟩ := follows isKept
      rw [if_pos rfl, was]
      exact .some follows
    · rw [if_neg same]
      exact keeps.follows other isKept
  remembered := keeps.remembered

section Put

variable {kind : ResourceKind} {name : String} {value : Object} {changed : Scope}

/-- Replacing what is painted with leaves everything as it was. -/
theorem put (keeps : layout.Keeps former document) (has : layout.HasResources resources)
    (isPainted : kind ≠ .colorSpace) (fits : value.fits layout.role .painted = true)
    (replaced : Scope.replace ⟨document, resources⟩ kind name value = .ok changed) :
    layout.Keeps former changed.document ∧ layout.HasResources changed.resources := by
  have isEntry : kind.entryRole = .painted := by
    cases kind <;> first | contradiction | rfl
  have isCategory : kind.role = .paints := by
    cases kind <;> first | contradiction | rfl
  cases Scope.replaces_of_replace replaced with
  | object entry target found isTarget =>
      have allowed := (keeps.entry_fits has found).2 target isTarget
      rw [isEntry] at allowed
      have isRole := Role.eq_of_allows allowed (by decide)
      refine ⟨keeps.store (by rwa [isRole]) ?_, has⟩
      rw [isRole]
      intro isKept
      cases isKept
  | category owner category hasCategory =>
      obtain ⟨categoryFits, allowed⟩ := keeps.category_fits has hasCategory
      rw [isCategory] at categoryFits allowed
      have isRole := Role.eq_of_allows (allowed owner rfl) (by decide)
      refine ⟨keeps.store ?_ ?_, has⟩
      · rw [isRole, Object.fits_dictionary_iff]
        exact categoryFits.insert fits
      · rw [isRole]
        intro isKept
        cases isKept
  | stored target location entries isIndirect fetched =>
      obtain rfl : resources = .indirect target := isIndirect
      obtain ⟨before, others, was, now, spaces⟩ := keeps.stored_resources has
      rw [show (Scope.mk document (.indirect target)).document = document from rfl,
        Document.fetchWithId_of_value now rfl] at fetched
      obtain ⟨rfl, same⟩ := Prod.mk.inj (Except.ok.inj fetched)
      obtain rfl := Object.dictionary.inj same
      have entriesFit := keeps.fits target _ now
      rw [has.1, Object.fits_dictionary_iff] at entriesFit
      refine ⟨keeps.store ?_ fun _ => ⟨_, was, ?_⟩, has⟩
      · rw [has.1, Object.fits_dictionary_iff]
        exact fits_enter entriesFit (by rwa [isEntry])
      · unfold Follows
        rw [has.1]
        refine .dictionary _ _ ?_
        have differ : Bytes.ascii kind.key ≠ Bytes.ascii "ColorSpace" := by
          cases kind <;> first | contradiction | decide
        simpa [Scope.enter, Dictionary.set, Dictionary.get?, differ] using spaces
  | owned entries isDirect =>
      obtain rfl : resources = .direct entries := isDirect
      exact ⟨keeps, fits_enter has (by rwa [isEntry])⟩

end Put

section Settle

variable {name : String} {location : Option EntryLocation} {changed : Scope}
variable {underlying : ColorSpace Float32 Float}

/-- What a converter remembers when the pattern space at a place becomes gray. -/
def remembering (former : FormerSpaces) (location : Option EntryLocation)
    (underlying : ColorSpace Float32 Float) : FormerSpaces :=
  match location with
  | some place => former.insert place (.patternOver underlying)
  | none => former

/-- A pattern space of which nothing is remembered becomes gray and is remembered. -/
theorem settle (keeps : layout.Keeps former document) (has : layout.HasResources resources)
    (named : layout.OnlyNamed)
    (located : Scope.location? ⟨document, resources⟩ .colorSpace name = .ok location)
    (unknown : ∀ place ∈ location, former.find? place = none)
    (isSpace : Scope.colorSpace ⟨document, resources⟩ name = .ok (.patternOver underlying))
    (replaced : Scope.replace ⟨document, resources⟩ .colorSpace name grayPatternSpace =
      .ok changed) :
    layout.Keeps (remembering former location underlying) changed.document ∧
      layout.HasResources changed.resources := by
  obtain ⟨entry, found, items, isArray⟩ := Scope.lookup?_of_colorSpace isSpace
  have isValue := Scope.isReference_of_lookup? found
  have read : ColorSpace.read document entry.value = .ok (.patternOver underlying) := by
    simpa [Scope.colorSpace, found, bind, Except.bind] using isSpace
  obtain ⟨entryFits, allowed⟩ := keeps.entry_fits has found
  have wasRead : ColorSpace.read layout.original entry.value = .ok (.patternOver underlying) :=
    ColorSpace.carries_read keeps.agree.leads (Object.fits_shared_of_space entryFits isValue) _ read
  obtain ⟨owner, category, object, hasCategory, atName, resolved⟩ :=
    Scope.lookup?_eq_some.1 found
  obtain rfl := Except.ok.inj ((Scope.location?_eq found hasCategory).symm.trans located)
  rcases Scope.replace_cases replaced found hasCategory with
    ⟨target, isTarget, rfl⟩ | ⟨alone, owner, rfl, rfl⟩ | ⟨alone, rfl, enters⟩
  · rw [isTarget] at resolved unknown ⊢
    have now := Document.find?_of_resolveWithId resolved
    have kept := Role.isKept_of_allows (show Role.isKept .space = true from rfl)
      (allowed target isTarget)
    obtain ⟨before, was, follows⟩ := keeps.stored kept now
    have isRole : layout.role target = .space := by
      have allowed := allowed target isTarget
      cases isRole : layout.role target <;> rw [isRole] at allowed <;> try contradiction
      case shared =>
        unfold Follows at follows
        rw [isRole] at follows
        obtain rfl : before = entry.value := follows
        exact absurd wasRead (named target _ underlying isRole was)
    unfold Follows at follows
    rw [isRole] at follows
    obtain rfl := follows.eq_of_unknown unknown
    refine ⟨keeps.store_insert (fits_grayPatternSpace _ _) rfl isRole was ?_, has⟩
    · unfold Follows
      rw [isRole]
      exact .gray _ underlying rfl (by simp) isValue wasRead
  all_goals
    obtain ⟨_, ⟨_, _, rfl⟩ | ⟨_, target, isTarget, _⟩⟩ := Document.followChain_eq_ok resolved
    case inr => rw [alone] at isTarget; cases isTarget
    rw [alone] at unknown ⊢
  · obtain ⟨categoryFits, ownerAllowed⟩ := keeps.category_fits has hasCategory
    have isRole := Role.eq_of_allows (ownerAllowed owner rfl) (by decide)
    obtain ⟨before, was, follows⟩ := keeps.stored (by rw [isRole]; rfl) hasCategory.stored
    unfold Follows at follows
    rw [isRole] at follows
    refine ⟨keeps.store_insert ?_ rfl (Or.inl isRole) was ?_, has⟩
    · rw [isRole, Object.fits_dictionary_iff]
      exact categoryFits.insert (fits_grayPatternSpace _ _)
    · unfold Follows
      rw [isRole]
      exact follows.settle atName (unknown _ rfl) isValue wasRead
  · obtain ⟨entries, atEntries, atKey⟩ := hasCategory.inline
    obtain ⟨categoryFits, _⟩ := keeps.category_fits has hasCategory
    have changedFits : Object.fits layout.role .spaces
        (.dictionary (category.insert (Text.toBytes name) grayPatternSpace)) = true :=
      Object.fits_dictionary_iff.2 (categoryFits.insert (fits_grayPatternSpace _ _))
    cases enters with
    | stored target root others isIndirect fetched =>
        obtain rfl : resources = .indirect target := isIndirect
        obtain ⟨before, stored, was, now, spaces⟩ := keeps.stored_resources has
        rw [show (Scope.mk document (.indirect target)).document = document from rfl,
          Document.fetchWithId_of_value now rfl] at fetched
        obtain ⟨rfl, same⟩ := Prod.mk.inj (Except.ok.inj fetched)
        obtain rfl := Object.dictionary.inj same
        obtain ⟨place, again⟩ := Document.fetchDictionary_eq_ok.1 atEntries
        rw [show (Scope.mk document (.indirect target)).document = document from rfl,
          Document.fetchWithId_of_value now rfl] at again
        obtain rfl := Object.dictionary.inj (Prod.mk.inj (Except.ok.inj again)).2
        have storedFits := keeps.fits target _ now
        rw [has.1, Object.fits_dictionary_iff] at storedFits
        rw [show stored.get? "ColorSpace" = some (.dictionary category) from atKey] at spaces
        obtain ⟨wasCategory, wasKey, settled⟩ := exists_of_rel spaces
        refine ⟨keeps.store_insert ?_ rfl (Or.inr has.1) was ?_, has⟩
        · rw [has.1, Object.fits_dictionary_iff]
          exact storedFits.insert changedFits
        · unfold Follows
          rw [has.1]
          refine .dictionary _ _ ?_
          rw [wasKey]
          have atSpaces : (stored.set "ColorSpace" (.dictionary
              (category.insert (Text.toBytes name) grayPatternSpace))).get? "ColorSpace" =
                some (.dictionary (category.insert (Text.toBytes name) grayPatternSpace)) := by
            simp [Dictionary.set, Dictionary.get?]
          rw [show ResourceKind.colorSpace.key = "ColorSpace" from rfl, atSpaces]
          exact .some (settled.settle atName (unknown _ rfl) isValue wasRead)
    | owned others isDirect =>
        obtain rfl : resources = .direct others := isDirect
        exact ⟨keeps, Dictionary.Fits.insert has changedFits⟩

end Settle

/-- The resources that an entry stands for are those that the original document has, or belong to
whoever reads them. -/
theorem hasResources_ofEntry {entry : Object} {own : Resources}
    (keeps : layout.Keeps former document) (fits : entry.fits layout.role .resources = true)
    (read : Resources.ofEntry document entry = .ok own) : layout.HasResources own := by
  obtain ⟨⟨location, value⟩, resolved, read⟩ := Outcome.bind_eq_ok.1 read
  obtain ⟨valueFits, allowed⟩ := keeps.fits.resolveWithId fits resolved
  cases location with
  | none =>
      cases value with
      | dictionary entries =>
          obtain rfl := Outcome.pure_eq_ok.1 read
          exact Object.fits_dictionary_iff.1 valueFits
      | _ => exact (Outcome.throw_eq_ok.1 read).elim
  | some target =>
      have isRole := Role.eq_of_allows (allowed target rfl) (by decide)
      cases value with
      | dictionary entries =>
          obtain rfl := Outcome.pure_eq_ok.1 read
          obtain ⟨before, was, follows⟩ :=
            keeps.stored (by rw [isRole]; rfl) (Document.find?_of_resolveWithId resolved)
          unfold Follows at follows
          rw [isRole] at follows
          cases follows with
          | same _ notDictionary => cases notDictionary
          | dictionary before => exact ⟨isRole, before, was⟩
      | _ => exact (Outcome.throw_eq_ok.1 read).elim

end Keeps

/-- What a conversion keeps of a document as it was. -/
def keeping (layout : Layout) : Conversion.Keeping where
  job job := layout.Keeps job.converter.formerSpaces job.document
  resources := layout.HasResources
  painted := Dictionary.Fits layout.role .painted
  place target := layout.role target = .painted

end Layout

namespace Conversion
open Change

variable {layout : Layout}

/-- Making a pattern space gray keeps the document as it was. -/
theorem keeps_convertPatternSpace (named : layout.OnlyNamed) (name : String) (scene : Scene) :
    Change.Keeps layout.keeping.scene (fun _ => True) (convertPatternSpace name) scene := by
  refine alike_get_bind fun held => alike_lift_bind fun location located => ?_
  split
  · exact keeps_pure trivial
  · rename_i unknown
    refine alike_lift_bind fun space isSpace => ?_
    split
    · rename_i underlying
      refine keeps_of fun _ => ?_
      show Leaves _ _ (EStateM.bind (Change.within _ _ _) _ scene)
      unfold EStateM.bind Change.within
      cases stored : Scope.setColorSpace name (.patternOver .deviceGray) scene.scope with
      | error fault changed =>
          obtain rfl := Scope.eq_of_set_eq_error stored
          exact held
      | ok done changed =>
          obtain ⟨keeps, has⟩ := held.1.settle held.2 named located (by
            intro place isPlace
            simpa [show location = some place from isPlace, Table.contains] using unknown)
            isSpace (setColorSpace_eq_ok stored)
          cases location with
          | some place => exact ⟨trivial, keeps, has⟩
          | none => exact ⟨trivial, keeps, has⟩
    · exact keeps_pure trivial

/-- A conversion keeps a document as it was. -/
theorem lawful_keeping (named : layout.OnlyNamed) : layout.keeping.Lawful where
  count change job := keeps_modify fun held => held
  settle := keeps_convertPatternSpace named
  lookup scene kind name entry held isPainted found := by
    have isFound := Scope.lookup_eq_ok.1 found
    have fits := (held.1.entry_fits held.2 isFound).1
    have isEntry : kind.entryRole = .painted := by
      cases kind <;> first | contradiction | rfl
    rw [isEntry] at fits
    exact ⟨Scope.isReference_of_lookup? isFound, fun entries => Object.fits_of_entries? fits⟩
  readShading job entries pattern held fits read := by
    obtain ⟨entry, location, value, atKey, resolved, rfl⟩ := Pattern.readShading_eq_ok.1 read
    have entryFits : entry.fits layout.role .painted = true := fits.find atKey
    obtain ⟨valueFits, allowed⟩ := held.fits.resolveWithId entryFits resolved
    exact ⟨fits, ⟨Document.isReference_of_resolveWithId resolved,
      fun entries => Object.fits_of_entries? valueFits⟩,
      fun target isTarget => Role.eq_of_allows (allowed target isTarget) (by decide)⟩
  own job entries own held fits read := by
    unfold Resources.ofOwner? at read
    cases atKey : entries.get? "Resources" with
    | none =>
        rw [atKey] at read
        cases read
    | some entry =>
        rw [atKey, Option.mapM_some] at read
        obtain ⟨found, atEntry, same⟩ := Outcome.map_eq_ok.1 read
        obtain rfl := Option.some.inj same
        exact held.hasResources_ofEntry (fits.find atKey) atEntry
  noResources := Dictionary.fits_empty _ _
  within entries others fits within := by
    refine fits.mono fun entry isEntry hasRole => within entry isEntry ?_
    by_contra isOther
    rw [not_or] at isOther
    refine hasRole ?_
    simp [Role.below, Role.keys, isOther.1, isOther.2, eq_comm]
  setResources entries own fits ownFits :=
    Dictionary.Fits.insert fits (Object.fits_dictionary_iff.2 ownFits)
  storeShading target shading job isRole held keeps := by
    refine keeps.store ?_ ?_
    · rw [show layout.role target = .painted from isRole]
      exact fits_painted held.isValue held.painted
    · rw [show layout.role target = .painted from isRole]
      intro isKept
      cases isKept
  setShading entries shading fits held :=
    Dictionary.Fits.insert fits (fits_painted held.isValue held.painted)
  put kind name value scene isPainted held := by
    refine keeps_of fun heldScene => ?_
    unfold Scene.onScope Change.within
    cases stored : Scope.set kind name value scene.scope with
    | error fault changed =>
        obtain rfl := Scope.eq_of_set_eq_error stored
        exact heldScene
    | ok done changed =>
        exact ⟨trivial, heldScene.1.put heldScene.2 isPainted
          (fits_painted held.isValue held.painted) (Scope.replace_of_set_eq_ok stored)⟩
  space space job := by
    refine keeps_of fun held => ⟨trivial, ?_⟩
    exact space.onlyAdds_toObject (fun document => layout.Keeps _ document)
      (fun _ value keeps => keeps.add value) job.document held

/-- A change inside a stream keeps the document as it was if it does so there. -/
theorem keeps_insideLayout {α : Type} {gives : α → Prop} {step : Change Scene α}
    (keeps : ∀ scene, Change.Keeps layout.keeping.scene gives step scene)
    (location : Option ObjectId) (scene : Scene) :
    Change.Keeps layout.keeping.scene gives (Scene.inside location step) scene := by
  refine keeps_of fun held => ?_
  unfold Scene.inside
  split
  · exact held
  · rename_i trail _
    obtain ⟨_, leaves⟩ := keeps (Scene.inside.setTrail trail scene) held
    cases atStep : step (Scene.inside.setTrail trail scene) with
    | ok value after =>
        rw [atStep] at leaves
        exact leaves
    | error fault after =>
        rw [atStep] at leaves
        exact leaves

/-- A stream in which streams are nested is converted with the document kept as it was. -/
theorem keepsLayout_convertStream (named : layout.OnlyNamed) (depth : Nat) :
    (convertStream depth).Alike layout.keeping (convertStream depth) := by
  induction depth with
  | zero => exact fun _ _ _ => alike_get_bind fun _ => keeps_throw _
  | succ depth inductionHypothesis =>
      intro location content scene
      have walks (scene : Scene) : Change.Keeps layout.keeping.scene (fun _ => True)
          (Walk.through (convertOperations (convertStream depth) content)) scene :=
        alike_through (alike_convertOperations (lawful_keeping named) inductionHypothesis content)
      refine (keeps_insideLayout walks location scene).bind fun result _ _ => ?_
      exact (alike_onJob ((lawful_keeping named).count _)).bind fun _ _ _ => keeps_pure trivial

/-- Content is converted with the document kept as it was. -/
theorem keepsLayout_contentToGray (named : layout.OnlyNamed) (content : Bytes) (scene : Scene) :
    Change.Keeps layout.keeping.scene (fun _ => True) (contentToGray content) scene :=
  alike_get_bind fun _ =>
    alike_convertOwn (lawful_keeping named) (keepsLayout_convertStream named _) none content scene

end Conversion
end Monochrome
