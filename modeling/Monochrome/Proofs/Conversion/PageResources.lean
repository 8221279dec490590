import Monochrome.Proofs.Conversion.PageTree
import Monochrome.Proofs.Conversion.Told

/-!
# Resources of pages

The resources of a page are taken from it, and become an object of their own if they are part of a
node.  Whatever was converted before, they are those that the page had in the document as it was at
first, with the same color spaces.
-/

namespace Monochrome

/-- A dictionary under a number is fetched. -/
theorem Document.fetchDictionary_of_find? {document : Document} {target : ObjectId}
    {entries : Dictionary} (stored : document.find? target = some (.dictionary entries)) :
    document.fetchDictionary target = .ok entries := by
  rw [fetchDictionary, fetch, fetchWithId_of_value stored rfl]
  rfl

namespace Resources

variable {document : Document} {page : ObjectId}

/-- The owner of resources is a node with an entry for them. -/
theorem exists_node_of_findOwner {depth : Nat} {owner : ObjectId} {entry : Object}
    (found : findOwner document depth page = .ok (some (owner, entry))) :
    ∃ node, document.fetchDictionary owner = .ok node ∧ node.get? "Resources" = some entry := by
  induction depth generalizing page with
  | zero => cases found
  | succ depth inductionHypothesis =>
      obtain ⟨node, fetched, found⟩ := Outcome.bind_eq_ok.1 found
      cases isEntry : node.get? "Resources" with
      | some value =>
          rw [isEntry] at found
          cases found
          exact ⟨node, fetched, isEntry⟩
      | none =>
          rw [isEntry] at found
          cases isParent : node.get? "Parent" with
          | none =>
              rw [isParent] at found
              cases found
          | some parent =>
              rw [isParent] at found
              cases parent with
              | reference target => exact inductionHypothesis found
              | _ => cases found

end Resources

section Entries

variable {dictionary : Dictionary} {key other : String} {value : Object}

/-- A value that was set is found under its key. -/
theorem get?_set_self : (dictionary.set key value).get? key = some value :=
  (Table.find?_insert _ _ _ _).trans (if_pos rfl)

/-- The other keys are as before. -/
theorem get?_set_of_ne (isOther : Bytes.ascii key ≠ Bytes.ascii other) :
    (dictionary.set key value).get? other = dictionary.get? other :=
  (Table.find?_insert _ _ _ _).trans (if_neg isOther)

end Entries

namespace Layout

/-- What the resources of a page were, and what they are now: a dictionary of a node is an object of
its own. -/
inductive ResourcesFrom (start layout : Layout) : Resources → Resources → Prop
  /-- They are the same. -/
  | same (resources : Resources) (has : start.HasResources resources) :
      ResourcesFrom start layout resources resources
  /-- A dictionary of a node became an object. -/
  | moved (entries : Dictionary) (target : ObjectId)
      (fits : Dictionary.Fits start.role .resources entries) (isRole : layout.role target = .resources)
      (stored : layout.original.find? target = some (.dictionary entries)) :
      ResourcesFrom start layout (.direct entries) (.indirect target)

namespace Became

variable {start layout : Layout} {written : List (ObjectId × Stream)} {former : FormerSpaces}
variable {document after : Document} {page location place : ObjectId} {entry value : Object}
variable {now : Resources}
variable (became : start.Became layout written former document)
include became

/-- Objects that are neither nodes nor without a role are in the layout what they were at first. -/
theorem find?_original {kind : Role} (isKind : kind ≠ .loose ∧ kind ≠ .node) (target : ObjectId)
    (allowed : kind.allows (start.role target) = true) :
    layout.original.find? target = start.original.find? target := by
  refine became.grows.same target ?_ ?_
  · intro isLoose
    rw [isLoose, Role.allows_loose_iff] at allowed
    exact isKind.1 allowed
  · intro isNode
    rw [isNode] at allowed
    cases kind <;> first | exact isKind.1 rfl | exact isKind.2 rfl | cases allowed

/-- What fits the roles of the document as it was fits those that it has now. -/
theorem fits_now {kind : Role} {object : Object} (fits : object.fits start.role kind = true) :
    object.fits layout.role kind = true :=
  Object.fits_mono became.grows.roles kind object fits

/-- A reference to resources leads to the object to which it led at first. -/
theorem ofReference {target : ObjectId} (fits : (Object.reference target).fits start.role .resources)
    (read : Resources.ofEntry document (.reference target) = .ok now) :
    ∃ before, Resources.ofEntry start.original (.reference target) = .ok before ∧
      start.ResourcesFrom layout before now := by
  obtain ⟨⟨location, value⟩, resolved, result⟩ := Outcome.bind_eq_ok.1 read
  obtain ⟨reached, before, rfl, isRole, was, follows⟩ :=
    became.stands.keeps.followChain .resources (by decide) (became.fits_now fits) rfl resolved
  have isKind : Role.resources ≠ .loose ∧ Role.resources ≠ .node := by decide
  rw [became.fits.followChain_eq (became.find?_original isKind) fits] at was
  have wasRole := (became.fits.resolveWithId fits was).2 reached rfl
  have wasStored := Document.find?_of_resolveWithId was
  unfold Follows at follows
  rw [Role.eq_of_allows isRole (by decide)] at follows
  cases value with
  | dictionary entries =>
      cases follows with
      | same _ notDictionary => cases notDictionary
      | dictionary before =>
          obtain rfl := Outcome.pure_eq_ok.1 result
          refine ⟨.indirect reached, Outcome.bind_eq_ok.2 ⟨_, was, rfl⟩, .same _ ?_⟩
          exact ⟨Role.eq_of_allows wasRole (by decide), before, wasStored⟩
  | _ => exact (Outcome.throw_eq_ok.1 result).elim

/-- A reference to resources that were a dictionary of a node leads to their object. -/
theorem ofMoved {target : ObjectId} {entries : Dictionary}
    (isRole : layout.role target = .resources)
    (stored : layout.original.find? target = some (.dictionary entries))
    (read : Resources.ofEntry document (.reference target) = .ok now) : now = .indirect target := by
  obtain ⟨⟨location, value⟩, resolved, result⟩ := Outcome.bind_eq_ok.1 read
  have fits : (Object.reference target).fits layout.role .resources = true := by
    rw [Object.fits_reference, isRole]
    decide
  obtain ⟨reached, before, rfl, -, was, follows⟩ :=
    became.stands.keeps.followChain .resources (by decide) fits rfl resolved
  have direct : layout.original.followChain Document.chainLimit none (.reference target) =
      .ok (some target, .dictionary entries) := by
    rw [Document.chainLimit, Document.followChain, stored]
    rfl
  cases direct.symm.trans was
  unfold Follows at follows
  rw [isRole] at follows
  cases follows with
  | same _ notDictionary => cases notDictionary
  | dictionary before current => exact (Outcome.pure_eq_ok.1 result).symm

/-- What an entry for resources stands for is what it stood for at first, or an object of its own. -/
theorem ofEntry {was : Object} (fits : was.fits start.role .resources = true)
    (entryFrom : layout.EntryFrom was entry)
    (read : Resources.ofEntry document entry = .ok now) :
    ∃ before, Resources.ofEntry start.original was = .ok before ∧
      start.ResourcesFrom layout before now := by
  cases entryFrom with
  | same =>
      cases entry with
      | reference target => exact became.ofReference fits read
      | dictionary entries =>
          cases read
          exact ⟨.direct entries, rfl, .same _ (Object.fits_dictionary_iff.1 fits)⟩
      | _ => cases read
  | moved entries target isRole stored =>
      obtain rfl := became.ofMoved isRole stored read
      exact ⟨.direct entries, rfl, .moved entries target (Object.fits_dictionary_iff.1 fits) isRole
        stored⟩

/-- What became of an entry for resources fits the roles that it has now. -/
theorem fits_entry {was : Object} (fits : was.fits start.role .resources = true)
    (entryFrom : layout.EntryFrom was entry) : entry.fits layout.role .resources = true := by
  cases entryFrom with
  | same => exact became.fits_now fits
  | moved entries target isRole stored =>
      rw [Object.fits_reference, isRole]
      decide

/-- Nothing changes with an object that is added alone. -/
theorem add (value : Object) : start.Became layout written former (Document.add value document).2 where
  grows := became.grows
  stands := ⟨became.stands.keeps.add value, became.stands.fits, became.stands.named⟩
  fits := became.fits

/-- The number of the next object has no role, so no node has it. -/
theorem fresh_ne (isNode : start.role place = .node) : place ≠ document.fresh := by
  rintro rfl
  have isLoose : layout.role document.fresh = .loose := became.stands.keeps.isLoose_of_highest
  rw [became.grows.roles document.fresh (by simp [isNode]), isNode] at isLoose
  cases isLoose

/-- A node is where it was at first, also after an object was added. -/
theorem fetchStoredDictionary_add {node : Dictionary} (isNode : start.role page = .node)
    (stored : (Document.add value document).2.fetchStoredDictionary page = .ok (place, node)) :
    ∃ first : Dictionary, start.original.fetchStoredDictionary page = .ok (place, first) ∧
      start.role place = .node ∧ document.find? place = some (.dictionary node) := by
  obtain ⟨first, was, placed, atPlace, -⟩ :=
    (became.add value).fetchStoredDictionary isNode stored
  have same : (Document.add value document).2.find? place = document.find? place :=
    (Document.find?_store document document.fresh place value).trans
      (if_neg (became.fresh_ne placed).symm)
  exact ⟨first, was, placed, same.symm.trans atPlace⟩

/-- A dictionary of resources is moved from its node to an object of its own. -/
theorem attachResources {entries node : Dictionary} (placed : start.role place = .node)
    (atPlace : document.find? place = some (.dictionary node))
    (fits : (Object.dictionary entries).fits start.role .resources = true)
    (isEntry : node.get? "Resources" = some (.dictionary entries)) :
    ∃ other, start.Became other written former
        (document.attach place node "Resources" (.dictionary entries)) ∧
      other.role document.fresh = .resources ∧
        other.original.find? document.fresh = some (.dictionary entries) := by
  have isLoose : layout.role document.fresh = .loose := became.stands.keeps.isLoose_of_highest
  have placedNow : layout.role place = .node := by
    rw [became.grows.roles place (by simp [placed]), placed]
  have storedNow := (became.stands.find?_node placedNow).trans atPlace
  let other := layout.attach document.fresh place .resources
    (node.set "Resources" (.reference document.fresh)) (.dictionary entries)
  have isRole : other.role document.fresh = .resources := role_attach_self _
  have isMoved : other.original.find? document.fresh = some (.dictionary entries) := by
    rw [find?_original_attach, if_neg (became.fresh_ne placed), if_pos rfl]
  refine ⟨other, ⟨became.grows.attach isLoose placed storedNow (fun _ among => among) ?_ ?_,
    became.stands.attach placedNow atPlace rfl (.inl rfl) (became.fits_now fits) rfl, became.fits⟩,
    isRole, isMoved⟩
  · intro before nodeFrom
    have related := nodeFrom.resources
    rw [isEntry] at related
    obtain ⟨was, isWas, entryFrom⟩ := exists_of_rel related
    have same : was = .dictionary entries := by
      cases entryFrom
      rfl
    subst same
    exact {
      parent := (get?_set_of_ne (by decide)).trans nodeFrom.parent
      resources := by
        rw [isWas, get?_set_self]
        exact .some (.moved entries _ isRole isMoved)
      contents := fun notConverted =>
        (get?_set_of_ne (by decide)).trans (nodeFrom.contents notConverted) }
  · intro target stream among
    by_cases isPlace : target = place
    · subst isPlace
      obtain ⟨-, written, content, atTarget, isContents, isShared, isStream⟩ :=
        became.grows.contents _ _ among
      rw [storedNow] at atTarget
      cases atTarget
      exact .inr ⟨rfl, content, (get?_set_of_ne (by decide)).trans isContents,
        .inr ⟨isShared, isStream⟩⟩
    · exact .inl ⟨isPlace, among⟩

/-- The resources of a page are taken from it: they are what they were at first, or an object of their
own. -/
theorem takeFromPage (isNode : start.role page = .node)
    (done : Resources.takeFromPage page document = .ok now after) :
    ∃ other before, start.Became other written former after ∧
      Resources.ofPage start.original page = .ok before ∧ start.ResourcesFrom other before now ∧
        other.HasResources now := by
  simp only [Resources.takeFromPage, Change.bind_eq_ok, Change.get_eq_ok, Change.lift_eq_ok] at done
  obtain ⟨_, _, ⟨rfl, rfl⟩, owner, _, ⟨foundOwner, rfl⟩, done⟩ := done
  obtain ⟨first, wasFound, related⟩ := became.findOwner isNode foundOwner
  cases related with
  | none =>
      obtain ⟨rfl, rfl⟩ := Change.pure_eq_ok.1 done
      have fits : Dictionary.Fits start.role .resources Table.empty := Dictionary.fits_empty _ _
      exact ⟨layout, default, became, Outcome.bind_eq_ok.2 ⟨_, wasFound, rfl⟩, .same _ fits,
        Dictionary.fits_empty _ _⟩
  | @some was now related =>
      obtain ⟨owner, wasEntry⟩ := was
      obtain ⟨_, entry⟩ := now
      obtain ⟨rfl, isOwner, fits, entryFrom⟩ := related
      have ofPage {result : Resources}
          (read : Resources.ofEntry start.original wasEntry = .ok result) :
          Resources.ofPage start.original page = .ok result :=
        Outcome.bind_eq_ok.2 ⟨_, wasFound, read⟩
      cases entry with
      | dictionary entries =>
          have same : wasEntry = .dictionary entries := by
            cases entryFrom
            rfl
          subst same
          simp only [Change.bind_eq_ok, Change.get_eq_ok, Change.lift_eq_ok, Change.always_eq_ok,
            Change.modify_eq_ok, Change.pure_eq_ok] at done
          obtain ⟨_, _, ⟨rfl, rfl⟩, _, _, ⟨rfl, rfl⟩, ⟨place, found⟩, _, ⟨stored, rfl⟩, _, _, rfl,
            rfl, rfl⟩ := done
          obtain ⟨node, fetched, isEntry⟩ := Resources.exists_node_of_findOwner foundOwner
          obtain ⟨location, _, wasStored, -, storedNow⟩ := became.fetchDictionary isOwner fetched
          obtain ⟨_, -, -, atNode, -⟩ := became.fetchStoredDictionary isOwner storedNow
          obtain ⟨_, wasAgain, placed, atPlace⟩ := became.fetchStoredDictionary_add isOwner stored
          cases wasStored.symm.trans wasAgain
          cases atNode.symm.trans atPlace
          obtain ⟨other, becomes, isRole, isMoved⟩ :=
            became.attachResources placed atPlace fits isEntry
          refine ⟨other, .direct entries, becomes, ofPage rfl, .moved entries _ ?_ isRole isMoved,
            isRole, entries, isMoved⟩
          exact Object.fits_dictionary_iff.1 fits
      | _ =>
          simp only [Change.bind_eq_ok, Change.get_eq_ok, Change.lift_eq_ok] at done
          obtain ⟨_, _, ⟨rfl, rfl⟩, read, rfl⟩ := done
          obtain ⟨before, wasRead, resourcesFrom⟩ := became.ofEntry fits entryFrom read
          have has := became.stands.keeps.hasResources_ofEntry (became.fits_entry fits entryFrom) read
          exact ⟨layout, before, became, ofPage wasRead, resourcesFrom, has⟩

end Became
end Layout

/-! ## Color spaces of a page -/

section Spaces

variable {role : ObjectId → Role} {first second : Scope} {entries : Dictionary}

/-- A scope with the same resource dictionary, over a document with the same objects of every role
below it. -/
structure Scope.SameBelow (role : ObjectId → Role) (entries : Dictionary) (first second : Scope) :
    Prop where
  first_eq : first.dictionary = .ok entries
  second_eq : second.dictionary = .ok entries
  entries_fit : Dictionary.Fits role .resources entries
  fits : second.document.Fits role
  find? (kind : Role) (isKind : kind ≠ .loose ∧ kind ≠ .node) (target : ObjectId)
    (allowed : kind.allows (role target) = true) :
    first.document.find? target = second.document.find? target

variable (same : Scope.SameBelow role entries first second)
include same

/-- What an object of a role stands for is the same. -/
theorem Scope.SameBelow.resolveWithId {kind : Role} {object : Object}
    (isKind : kind ≠ .loose ∧ kind ≠ .node) (fits : object.fits role kind = true) :
    first.document.resolveWithId object = second.document.resolveWithId object :=
  same.fits.followChain_eq (same.find? kind isKind) fits

/-- The category of color spaces is the same, and fits. -/
theorem Scope.SameBelow.category? :
    first.category? .colorSpace = second.category? .colorSpace ∧
      ∀ category, second.category? .colorSpace = .ok (some category) →
        Dictionary.Fits role .spaces category := by
  have isKind : Role.spaces ≠ .loose ∧ Role.spaces ≠ .node := by decide
  simp only [Scope.category?, same.first_eq, same.second_eq, bind, Except.bind]
  cases isEntry : entries.get? ResourceKind.colorSpace.key with
  | none => exact ⟨rfl, by rintro _ ⟨⟩⟩
  | some entry =>
      have entryFits : entry.fits role .spaces = true := by
        have found := same.entries_fit.find isEntry
        rwa [Role.below_key] at found
      have resolved := same.resolveWithId isKind entryFits
      refine ⟨by simp only [Document.resolve, resolved], ?_⟩
      intro category found
      simp only [Document.resolve, bind, Except.bind] at found
      cases reached : second.document.resolveWithId entry with
      | error fault =>
          rw [reached] at found
          cases found
      | ok located =>
          obtain ⟨location, value⟩ := located
          rw [reached] at found
          cases value with
          | dictionary others =>
              cases found
              exact Object.fits_dictionary_iff.1 (same.fits.resolveWithId entryFits reached).1
          | _ => cases found

/-- A named color space is the same. -/
theorem Scope.SameBelow.lookup? (name : String) :
    first.lookup? .colorSpace name = second.lookup? .colorSpace name ∧
      ∀ entry, second.lookup? .colorSpace name = .ok (some entry) →
        entry.value.fits role .shared = true := by
  have isKind : Role.space ≠ .loose ∧ Role.space ≠ .node := by decide
  obtain ⟨sameCategory, categoryFits⟩ := same.category?
  simp only [Scope.lookup?, sameCategory, bind, Except.bind]
  cases isCategory : second.category? .colorSpace with
  | error fault => exact ⟨rfl, by rintro _ ⟨⟩⟩
  | ok category =>
      dsimp only
      cases isEntry : category.bind (·.find? (Text.toBytes name)) with
      | none => exact ⟨rfl, by rintro _ ⟨⟩⟩
      | some object =>
          obtain ⟨entries, rfl, atName⟩ := Option.bind_eq_some_iff.1 isEntry
          have objectFits : object.fits role .space = true :=
            (categoryFits entries isCategory).find atName
          refine ⟨by simp only [same.resolveWithId isKind objectFits], ?_⟩
          intro entry found
          dsimp only at found
          cases reached : second.document.resolveWithId object with
          | error fault =>
              rw [reached] at found
              cases found
          | ok located =>
              rw [reached] at found
              cases found
              have valueFits := (same.fits.resolveWithId objectFits reached).1
              exact Object.fits_shared_of_space valueFits
                (Document.isReference_of_resolveWithId reached)

/-- A named color space is read as the same. -/
theorem Scope.SameBelow.carries_colorSpace (name : String) :
    Outcome.Carries (first.colorSpace name) (second.colorSpace name) := by
  have isKind : Role.shared ≠ .loose ∧ Role.shared ≠ .node := by decide
  have agree : first.document.Agree (fun object => object.fits role .shared = true)
      second.document := by
    refine (same.fits.agree fun target isShared => ?_).symm
    refine (same.find? .shared isKind target ?_).symm
    rw [isShared]
    decide
  obtain ⟨sameEntry, entryFits⟩ := same.lookup? name
  rw [Scope.colorSpace, Scope.colorSpace, sameEntry]
  refine (Outcome.Carries.refl _).bind fun entry found => ?_
  cases entry with
  | none => exact .refl _
  | some entry => exact ColorSpace.carries_read agree.leads (entryFits entry found)

end Spaces

namespace Layout.Became

variable {start layout : Layout} {written : List (ObjectId × Stream)} {former : FormerSpaces}
variable {document : Document} {before now : Resources}

/-- The color spaces of a page as it was are those of the page as it is, in the document as it was. -/
theorem sameBelow (became : start.Became layout written former document)
    (resourcesFrom : start.ResourcesFrom layout before now) :
    ∃ entries, Scope.SameBelow start.role entries ⟨layout.original, now⟩
      ⟨start.original, before⟩ := by
  have find? (kind : Role) (isKind : kind ≠ .loose ∧ kind ≠ .node) (target : ObjectId)
      (allowed : kind.allows (start.role target) = true) :=
    became.find?_original isKind target allowed
  cases resourcesFrom with
  | same _ has =>
      cases before with
      | direct entries => exact ⟨entries, rfl, rfl, has, became.fits, find?⟩
      | indirect target =>
          obtain ⟨isRole, entries, stored⟩ := has
          have isKind : Role.resources ≠ .loose ∧ Role.resources ≠ .node := by decide
          have storedNow := (find? .resources isKind target (by rw [isRole]; decide)).trans stored
          refine ⟨entries, Document.fetchDictionary_of_find? storedNow,
            Document.fetchDictionary_of_find? stored, ?_, became.fits, find?⟩
          have fits := became.fits _ _ stored
          rwa [isRole, Object.fits_dictionary_iff] at fits
  | moved entries target fits isRole stored =>
      exact ⟨entries, Document.fetchDictionary_of_find? stored, rfl, fits, became.fits, find?⟩

/-- A scene tells the color spaces of a page as it was. -/
theorem tellsAs {scene : Scene} (became : start.Became layout written former document)
    (resourcesFrom : start.ResourcesFrom layout before now)
    (keeps : layout.Keeps scene.converter.formerSpaces scene.document)
    (tells : scene.TellsAs layout.IsShared ⟨layout.original, now⟩) :
    scene.TellsAs start.IsShared ⟨start.original, before⟩ where
  told name space own found := by
    obtain ⟨told, isTold, rest⟩ := tells.told name space own found
    obtain ⟨_, same⟩ := became.sameBelow resourcesFrom
    exact ⟨told, same.carries_colorSpace name told isTold, rest⟩
  agree := by
    have sameStart : start.Became layout written scene.converter.formerSpaces scene.document :=
      ⟨became.grows, ⟨keeps, became.stands.fits, became.stands.named⟩, became.fits⟩
    exact sameStart.agree

end Layout.Became
end Monochrome
