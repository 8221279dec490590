import Monochrome.Proofs.Conversion.FailedPages
import Monochrome.Proofs.Object.Closed
import Monochrome.Proofs.Resources.Cells

/-!
# Resources that are moved

When the resources of a page are taken, a resource dictionary that is part of a node becomes an
object, and the node refers to it.  All pages have the resources that they had: what they look up is
the same, in these resources and in others.  Only what looks at the node itself sees the new
reference: a name that stands for the node, and its key where the node is taken for a category.
-/

namespace Monochrome

open Document Outcome

/-! ## Resources in documents that agree -/

namespace Resources

variable {document other : Document} {kind : Object → Prop} {page : ObjectId}

/-- Whether resources are of a kind: their entries are, or what is stored under their number. -/
def IsOf (kind : Object → Prop) (document : Document) : Resources → Prop
  | .indirect target => document.find? target ≠ none ∧
      ∀ value, document.find? target = some value → kind value
  | .direct entries => Agree.Holds kind entries

section Agreeing

variable (agree : document.Agree kind other)
include agree

/-- A dictionary of a kind is fetched from a number under which an object of a kind stands. -/
theorem holds_of_fetchDictionary {start : ObjectId} {entries : Dictionary}
    (isKind : ∀ value, document.find? start = some value → kind value)
    (fetched : document.fetchDictionary start = .ok entries) : Agree.Holds kind entries := by
  obtain ⟨location, fetched⟩ := fetchDictionary_eq_ok.1 fetched
  unfold fetchWithId fetchWithin at fetched
  split at fetched
  case h_1 object found =>
    have isDictionary := agree.kind_of_fetchChain (isKind object found) fetched
    exact fun key value isEntry => agree.entry _ _ _ _ isDictionary rfl isEntry
  case h_2 => cases fetched

/-- The dictionary under a number is the same, if the same object of a kind stands under it. -/
theorem fetchDictionary_eq {start : ObjectId} (same : document.find? start = other.find? start)
    (isKind : ∀ value, document.find? start = some value → kind value) :
    other.fetchDictionary start = document.fetchDictionary start := by
  rw [fetchDictionary, fetch, agree.fetchWithId_eq same isKind]
  rfl

/-- The owner of the resources of a page is the same, with the same entry of a kind. -/
theorem findOwner_eq {depth : Nat} (same : document.find? page = other.find? page)
    (isKind : ∀ value, document.find? page = some value → kind value) :
    findOwner other depth page = findOwner document depth page ∧
      ∀ owner entry, findOwner document depth page = .ok (some (owner, entry)) → kind entry := by
  induction depth generalizing page with
  | zero => exact ⟨rfl, by rintro _ _ ⟨⟩⟩
  | succ depth inductionHypothesis =>
      rw [findOwner, findOwner, fetchDictionary_eq agree same isKind]
      cases fetched : document.fetchDictionary page with
      | error fault => exact ⟨rfl, by rintro _ _ ⟨⟩⟩
      | ok node =>
          have holds := holds_of_fetchDictionary agree isKind fetched
          simp only [Limited.ok_bind]
          cases isEntry : node.get? "Resources" with
          | some entry =>
              refine ⟨rfl, ?_⟩
              rintro _ _ ⟨⟩
              exact holds _ _ isEntry
          | none =>
              cases isParent : node.get? "Parent" with
              | none => exact ⟨rfl, by rintro _ _ ⟨⟩⟩
              | some object =>
                  cases object with
                  | reference parent =>
                      have isReference := holds _ _ isParent
                      exact inductionHypothesis (agree.target parent isReference)
                        (agree.stored parent · isReference)
                  | _ => exact ⟨rfl, by rintro _ _ ⟨⟩⟩

/-- An entry of a kind stands for the same resources, which are of the kind. -/
theorem ofEntry_eq {entry : Object} (isKind : kind entry) :
    ofEntry other entry = ofEntry document entry ∧
      ∀ own, ofEntry document entry = .ok own → own.IsOf kind document := by
  rw [ofEntry, ofEntry, agree.resolveWithId_eq isKind]
  refine ⟨rfl, fun own read => ?_⟩
  obtain ⟨⟨location, value⟩, resolved, read⟩ := bind_eq_ok.1 read
  have valueKind := kind_of_followChain agree.leads isKind resolved
  split at read
  case h_1 target entries _ same =>
    obtain ⟨rfl, rfl⟩ := Prod.mk.inj same
    obtain rfl := pure_eq_ok.1 read
    have stored := find?_of_resolveWithId resolved
    refine ⟨by simp [stored], fun value found => ?_⟩
    exact Option.some.inj (stored.symm.trans found) ▸ valueKind
  case h_2 entries _ same =>
    obtain ⟨rfl, rfl⟩ := Prod.mk.inj same
    obtain rfl := pure_eq_ok.1 read
    exact fun key value isEntry => agree.entry _ _ _ _ valueKind rfl isEntry
  case h_3 => cases read

end Agreeing
end Resources

namespace Scope

/-- Whether scopes have the same resource dictionary, of a kind, in documents that agree on the kind. -/
structure Agree (kind : Object → Prop) (first second : Scope) : Prop where
  document : first.document.Agree kind second.document
  dictionary : second.dictionary = first.dictionary
  holds entries : first.dictionary = .ok entries → Document.Agree.Holds kind entries

variable {first second : Scope} {kind : Object → Prop} {category : ResourceKind} {name : String}

section Agreeing

variable (agree : first.Agree kind second)
include agree

/-- The same object stands under the key of a category. -/
theorem Agree.atCategory : second.atCategory category = first.atCategory category := by
  rw [Scope.atCategory, Scope.atCategory, agree.dictionary]

/-- What stands under the key of a category is of the kind. -/
theorem Agree.kind_of_atCategory {entry : Object}
    (under : first.atCategory category = .ok (some entry)) : kind entry := by
  obtain ⟨entries, isDictionary, isEntry⟩ := map_eq_ok.1 under
  exact agree.holds entries isDictionary _ _ isEntry

/-- A category is stored under the same number. -/
theorem Agree.categoryNumber? : second.categoryNumber? category = first.categoryNumber? category := by
  rw [Scope.categoryNumber?, Scope.categoryNumber?, agree.atCategory]
  cases under : first.atCategory category with
  | error fault => rfl
  | ok entry =>
      cases entry with
      | none => rfl
      | some object =>
          simp only [Option.bind_some, locationOf?,
            agree.document.resolveWithId_eq (agree.kind_of_atCategory under)]

/-- A category is the same. -/
theorem Agree.category? : second.category? category = first.category? category := by
  rw [category?_eq, category?_eq, agree.atCategory]
  cases under : first.atCategory category with
  | error fault => rfl
  | ok entry =>
      cases entry with
      | none => rfl
      | some object =>
          simp only [Limited.ok_bind, readCategory, resolve,
            agree.document.resolveWithId_eq (agree.kind_of_atCategory under)]

/-- What stands in a category is of the kind. -/
theorem Agree.holds_of_category? {entries : Dictionary}
    (isCategory : first.category? category = .ok (some entries)) :
    Document.Agree.Holds kind entries := by
  rw [category?_eq, bind_eq_ok] at isCategory
  obtain ⟨entry, under, read⟩ := isCategory
  cases entry with
  | none => cases read
  | some object =>
      obtain ⟨value, resolved, read⟩ := bind_eq_ok.1 read
      have valueKind :=
        kind_of_resolve agree.document.leads (agree.kind_of_atCategory under) resolved
      split at read
      case h_1 =>
        obtain rfl := Option.some.inj (pure_eq_ok.1 read)
        exact fun key value isEntry => agree.document.entry _ _ _ _ valueKind rfl isEntry
      case h_2 => cases read

/-- The same object stands under a name. -/
theorem Agree.atName : second.atName category name = first.atName category name := by
  rw [Scope.atName, Scope.atName, agree.category?]

/-- What stands under a name is of the kind. -/
theorem Agree.kind_of_atName {entry : Object}
    (under : first.atName category name = .ok (some entry)) : kind entry := by
  obtain ⟨found, isCategory, isEntry⟩ := map_eq_ok.1 under
  obtain ⟨entries, rfl, isEntry⟩ := Option.bind_eq_some_iff.1 isEntry
  exact agree.holds_of_category? isCategory _ _ isEntry

/-- A resource is stored under the same number. -/
theorem Agree.number? : second.number? category name = first.number? category name := by
  rw [Scope.number?, Scope.number?, agree.atName]
  cases under : first.atName category name with
  | error fault => rfl
  | ok entry =>
      cases entry with
      | none => rfl
      | some object =>
          simp only [Option.bind_some, locationOf?,
            agree.document.resolveWithId_eq (agree.kind_of_atName under)]

/-- A resource is the same. -/
theorem Agree.lookup? : second.lookup? category name = first.lookup? category name := by
  rw [lookup?_eq, lookup?_eq, agree.atName]
  cases under : first.atName category name with
  | error fault => rfl
  | ok entry =>
      cases entry with
      | none => rfl
      | some object =>
          simp only [Limited.ok_bind, readEntry,
            agree.document.resolveWithId_eq (agree.kind_of_atName under)]

end Agreeing
end Scope

/-! ## A node that refers to its resources -/

/-- The dictionary to which a number leads is the one that is stored where it leads. -/
theorem Document.fetchDictionary_of_fetchedAt? {document : Document} {start target : ObjectId}
    {entries : Dictionary} (atTarget : document.fetchedAt? start = some target)
    (stored : document.find? target = some (.dictionary entries)) :
    document.fetchDictionary start = .ok entries :=
  (Scope.dictionary_of_root? atTarget stored : (Scope.mk document (.indirect start)).dictionary = _)

namespace Resources

section Referring

variable {document : Document} {target : ObjectId} {node : Dictionary} {was entry : Object}
  (stored : document.find? target = some (.dictionary node))
include stored

/-- An entry stands for the same resources after an entry of a node was replaced. -/
theorem ofEntry_store (changed : Dictionary) (object : Object) :
    ofEntry (document.store target (.dictionary changed)) object = ofEntry document object := by
  rw [ofEntry, ofEntry, resolveWithId_store_eq stored rfl rfl]
  cases resolved : document.resolveWithId object with
  | error fault => rfl
  | ok reached =>
      obtain ⟨location, value⟩ := reached
      by_cases atNode : location = some target
      · subst atNode
        obtain rfl := Option.some.inj ((find?_of_resolveWithId resolved).symm.trans stored)
        simp [seen]
      · simp [seen, atNode]

/-- After the entry of a node for its resources was replaced, the owner of the resources of a page is
the same, with the new entry if it is the node. -/
theorem findOwner_store (has : node.get? "Resources" = some was) (depth : Nat) (page : ObjectId) :
    findOwner (document.store target (.dictionary (node.set "Resources" entry))) depth page =
      (fun found => found.map fun (owner, old) =>
        (owner, if document.fetchedAt? owner = some target then entry else old)) <$>
        findOwner document depth page := by
  induction depth generalizing page with
  | zero => rfl
  | succ depth inductionHypothesis =>
      by_cases atNode : document.fetchedAt? page = some target
      · have fetched : document.fetchDictionary page = .ok node :=
          fetchDictionary_of_fetchedAt? atNode stored
        have fetchedAfter : (document.store target (.dictionary
            (node.set "Resources" entry))).fetchDictionary page =
              .ok (node.set "Resources" entry) :=
          fetchDictionary_of_fetchedAt? ((fetchedAt?_store stored rfl rfl page).trans atNode)
            (by simp)
        rw [findOwner_succ fetched, findOwner_succ fetchedAfter, has, get?_set_self]
        simp [atNode]
      · have same : (document.store target (.dictionary
            (node.set "Resources" entry))).fetchDictionary page = document.fetchDictionary page := by
          rw [fetchDictionary, fetch, fetchWithId_store_of_ne stored rfl rfl atNode]
          rfl
        rw [findOwner, findOwner, same]
        cases document.fetchDictionary page with
        | error fault => rfl
        | ok own =>
            simp only [Limited.ok_bind]
            cases own.get? "Resources" with
            | some old => simp [atNode, pure, Except.pure]
            | none =>
                cases own.get? "Parent" with
                | none => rfl
                | some parent =>
                    cases parent with
                    | reference next => exact inductionHypothesis next
                    | _ => rfl

end Referring

section Handing

variable {document after : Document} {page owner target other : ObjectId} {node entries : Dictionary}

/-- What is fetched from a number is no object that is added. -/
theorem find?_ne_none_of_fetchDictionary {start : ObjectId}
    (fetched : document.fetchDictionary start = .ok entries) : document.find? start ≠ none := by
  obtain ⟨location, fetched⟩ := fetchDictionary_eq_ok.1 fetched
  intro absent
  rw [fetchWithId, fetchWithin, absent] at fetched
  cases fetched

/-- What becomes of the resources of a page when a dictionary of a node becomes an object. -/
inductive Becomes (entries : Dictionary) (moved : ObjectId) : Resources → Resources → Prop
  /-- They are the dictionary. -/
  | object : Becomes entries moved (.direct entries) (.indirect moved)
  /-- They are others. -/
  | same (own : Resources) : Becomes entries moved own own

variable (isNumbered : document.IsNumbered) (isClosed : document.IsClosed)
  (found : findOwner document maxTreeDepth page = .ok (some (owner, .dictionary entries)))
  (stored : document.fetchStoredDictionary owner = .ok (target, node))

include found stored in
/-- The node that hands its resources over has them as an entry. -/
theorem node_of_owner : node.get? "Resources" = some (.dictionary entries) ∧
    document.find? target = some (.dictionary node) := by
  obtain ⟨same, fetched, isEntry⟩ := exists_node_of_findOwner found
  obtain ⟨location, fetched⟩ := fetchDictionary_eq_ok.1 fetched
  obtain ⟨again, atTarget⟩ := fetchStoredDictionary_eq_ok stored
  rw [again] at fetched
  obtain ⟨rfl, isNode⟩ := Prod.mk.inj (Except.ok.inj fetched)
  obtain rfl := Object.dictionary.inj isNode
  exact ⟨isEntry, atTarget⟩

include isNumbered found stored in
/-- The node stays where it is when an object is added. -/
theorem find?_node : (Document.add (.dictionary entries) document).2.find? target =
    some (.dictionary node) := by
  obtain ⟨_, atTarget⟩ := node_of_owner found stored
  rw [find?_add_of_ne _ (fresh_ne_of_find? isNumbered (by simp [atTarget])), atTarget]

/-- An entry that is a dictionary stands for it. -/
theorem ofEntry_dictionary (document : Document) (entries : Dictionary) :
    ofEntry document (.dictionary entries) = .ok (.direct entries) :=
  rfl

/-- A reference to a dictionary leads to it. -/
theorem resolveWithId_reference (isThere : document.find? other = some (.dictionary entries)) :
    document.resolveWithId (.reference other) = .ok (some other, .dictionary entries) := by
  rw [resolveWithId, chainLimit, followChain, isThere]
  rfl

/-- An entry that refers to a dictionary stands for the object. -/
theorem ofEntry_reference (isThere : document.find? other = some (.dictionary entries)) :
    ofEntry document (.reference other) = .ok (.indirect other) := by
  rw [ofEntry, resolveWithId_reference isThere]
  rfl

include isNumbered found stored in
/-- The new object holds what was handed over. -/
theorem find?_moved :
    (document.attach target node "Resources" (.dictionary entries)).find? document.fresh =
      some (.dictionary entries) := by
  obtain ⟨_, atTarget⟩ := node_of_owner found stored
  rw [find?_attach, if_neg (fresh_ne_of_find? isNumbered (by simp [atTarget])).symm, if_pos rfl]

include isNumbered isClosed found stored in
/-- A page has the resources that it had after they were handed over, or the new object if they are
what was handed over. -/
theorem exists_ofPage_attach (isOther : document.fresh ≠ other) :
    (∀ fault, ofPage document other = .error fault →
      ofPage (document.attach target node "Resources" (.dictionary entries)) other =
        .error fault) ∧
    ∀ own, ofPage document other = .ok own →
      own.IsOf document.Knows document ∧
      ∃ now, ofPage (document.attach target node "Resources" (.dictionary entries)) other =
          .ok now ∧ Becomes entries document.fresh own now := by
  have agree := agree_add isNumbered isClosed (.dictionary entries)
  have isNode := find?_node isNumbered found stored
  obtain ⟨isEntry, _⟩ := node_of_owner found stored
  obtain ⟨sameOwner, entryKnown⟩ :=
    findOwner_eq agree (find?_add_of_ne _ isOther).symm (isClosed other)
  have owners : findOwner (document.attach target node "Resources" (.dictionary entries))
      maxTreeDepth other = _ := findOwner_store isNode isEntry maxTreeDepth other
  rw [sameOwner] at owners
  unfold ofPage
  rw [owners]
  cases result : findOwner document maxTreeDepth other with
  | error fault => exact ⟨fun _ => id, by rintro _ ⟨⟩⟩
  | ok ownerAndEntry =>
      cases ownerAndEntry with
      | none =>
          refine ⟨fun _ => id, ?_⟩
          rintro _ ⟨⟩
          exact ⟨fun key value isEntry => (by cases isEntry), default, rfl, .same _⟩
      | some pair =>
          obtain ⟨holder, old⟩ := pair
          obtain ⟨sameEntry, isOf⟩ := ofEntry_eq agree (entryKnown holder old result)
          simp only [Except.map_ok, Option.map_some, Limited.ok_bind]
          split
          case isTrue atNode =>
            -- The page has its resources from the node.
            obtain ⟨own, fetched, isOld⟩ := exists_node_of_findOwner (sameOwner.trans result)
            rw [fetchDictionary_of_fetchedAt? atNode isNode] at fetched
            obtain rfl := Except.ok.inj fetched
            obtain rfl := Option.some.inj (isEntry.symm.trans isOld)
            rw [ofEntry_dictionary, ofEntry_reference (find?_moved isNumbered found stored)]
            refine ⟨by rintro _ ⟨⟩, ?_⟩
            rintro _ ⟨⟩
            exact ⟨isOf _ rfl, _, rfl, .object⟩
          case isFalse =>
            have same : ofEntry (document.attach target node "Resources" (.dictionary entries)) old =
                ofEntry document old := (ofEntry_store isNode _ old).trans sameEntry
            rw [same]
            exact ⟨fun _ => id, fun own read => ⟨isOf own read, own, read, .same own⟩⟩

include isNumbered isClosed in
/-- The resources of a page are the same ones in the document with the new object. -/
theorem agree_becomes {own now : Resources} (isOf : own.IsOf document.Knows document)
    (becomes : Becomes entries document.fresh own now) :
    Scope.Agree document.Knows ⟨document, own⟩
      ⟨(Document.add (.dictionary entries) document).2, now⟩ := by
  have agree := agree_add isNumbered isClosed (.dictionary entries)
  refine ⟨agree, ?_, ?_⟩
  · cases becomes with
    | object =>
        exact fetchDictionary_of_find? ((find?_add _ _ _).trans (if_pos rfl))
    | same =>
        cases own with
        | direct entries => rfl
        | indirect start =>
            obtain ⟨isThere, isKnown⟩ := isOf
            refine fetchDictionary_eq agree ?_ isKnown
            exact (find?_add_of_ne _ (fresh_ne_of_find? isNumbered isThere)).symm
  · intro others isDictionary
    cases own with
    | direct entries =>
        obtain rfl := Except.ok.inj isDictionary
        exact isOf
    | indirect start => exact holds_of_fetchDictionary agree isOf.2 isDictionary

end Handing

end Resources

/-- How a name is looked up after the resources of a page were taken: it stands for what it stood for,
unless this is the node that handed them over, which shows what it became, or the name is that of the
entry which the node handed over, and the node is taken for a category. -/
structure Scope.LooksUpAs (handsOver : ObjectId → Object → Prop) (moved : ObjectId)
    (before after : Scope) (kind : ResourceKind) (name : String) : Prop where
  same : (∀ target now, handsOver target now → before.number? kind name ≠ some target ∧
      ¬(before.categoryNumber? kind = some target ∧ name = "Resources")) →
    after.lookup? kind name = before.lookup? kind name
  node target now : handsOver target now → before.number? kind name = some target →
    after.lookup? kind name = .ok (some ⟨some target, now⟩)
  entry target now : handsOver target now → before.categoryNumber? kind = some target →
    name = "Resources" →
    ∃ entries, before.lookup? kind name = .ok (some ⟨none, .dictionary entries⟩) ∧
      after.lookup? kind name = .ok (some ⟨some moved, .dictionary entries⟩)

namespace Resources

variable {document after : Document} {page owner target other : ObjectId} {node entries : Dictionary}
  {own now : Resources}
  (isNumbered : document.IsNumbered) (isClosed : document.IsClosed)
  (found : findOwner document maxTreeDepth page = .ok (some (owner, .dictionary entries)))
  (stored : document.fetchStoredDictionary owner = .ok (target, node))
  (isOf : own.IsOf document.Knows document)
  (becomes : Becomes entries document.fresh own now)

include found stored in
/-- Only one node hands resources over. -/
theorem handsOver_iff {place : ObjectId} {object : Object} :
    HandsOver document page place object ↔
      place = target ∧ object = .dictionary (node.set "Resources" (.reference document.fresh)) := by
  constructor
  · rintro ⟨_, _, _, again, storedAgain, rfl⟩
    obtain ⟨rfl, _⟩ := Prod.mk.inj (Option.some.inj (Except.ok.inj (found.symm.trans again)))
    obtain ⟨rfl, rfl⟩ := Prod.mk.inj (Except.ok.inj (stored.symm.trans storedAgain))
    exact ⟨rfl, rfl⟩
  · rintro ⟨rfl, rfl⟩
    exact ⟨owner, node, entries, found, stored, rfl⟩

/-- The key of the resources of a node is that of no category. -/
theorem key_ne (kind : ResourceKind) : Bytes.ascii "Resources" ≠ Bytes.ascii kind.key := by
  cases kind <;> decide

/-- The key of the resources of a node is their name as that of an entry. -/
theorem key_eq_toBytes_iff {name : String} :
    Bytes.ascii "Resources" = Text.toBytes name ↔ name = "Resources" := by
  have isText : Bytes.ascii "Resources" = Text.toBytes "Resources" := by decide
  rw [isText]
  exact ⟨fun same => (Scope.toBytes_injective same).symm, fun same => by rw [same]⟩

/-- In a category that is a node the resources of the node are a name. -/
theorem atName_of_node {scope : Scope} {kind : ResourceKind} {entry : Object}
    (isNode : scope.document.find? target = some (.dictionary node))
    (isEntry : node.get? "Resources" = some entry)
    (atNode : scope.categoryNumber? kind = some target) :
    scope.atName kind "Resources" = .ok (some entry) := by
  rw [Scope.atName, Scope.category?_of_categoryNumber? atNode isNode]
  show Except.ok (node.find? (Text.toBytes "Resources")) = _
  rw [← key_eq_toBytes_iff.2 rfl]
  exact congrArg Except.ok isEntry

include isNumbered isClosed found stored isOf becomes in
/-- Names are looked up as before after a node handed its resources over. -/
theorem looksUpAs_attach (kind : ResourceKind) (name : String) :
    Scope.LooksUpAs (HandsOver document page) document.fresh ⟨document, own⟩
      ⟨document.attach target node "Resources" (.dictionary entries), now⟩ kind name := by
  have agree := agree_becomes isNumbered isClosed isOf becomes
  have isNode := find?_node isNumbered found stored
  obtain ⟨isEntry, wasNode⟩ := node_of_owner found stored
  -- The document before the entry of the node is replaced has the new object already.
  let before : Scope := ⟨document, own⟩
  let middle : Scope := ⟨(Document.add (.dictionary entries) document).2, now⟩
  have sameName (apart : ¬(before.categoryNumber? kind = some target ∧ name = "Resources")) :
      (middle.storing target (.dictionary (node.insert (Bytes.ascii "Resources")
        (.reference document.fresh)))).atName kind name = middle.atName kind name := by
    refine Scope.atName_inserting isNode (fun _ => key_ne kind) fun atNode isKey => apart ?_
    exact ⟨agree.categoryNumber?.symm.trans atNode, key_eq_toBytes_iff.1 isKey⟩
  have sameLookup (apart : ¬(before.categoryNumber? kind = some target ∧ name = "Resources")) :=
    Scope.lookup?_storing isNode rfl rfl (sameName apart)
  refine ⟨fun apart => ?_, fun place object handsOver atNode => ?_,
    fun place object handsOver atNode isName => ?_⟩
  · obtain ⟨notNode, notEntry⟩ := apart target _ ((handsOver_iff found stored).2 ⟨rfl, rfl⟩)
    refine (sameLookup notEntry).trans ?_
    rw [if_neg (agree.number?.trans_ne notNode)]
    exact agree.lookup?
  · obtain ⟨rfl, rfl⟩ := (handsOver_iff found stored).1 handsOver
    refine (sameLookup ?_).trans (if_pos (agree.number?.trans atNode))
    rintro ⟨atCategory, rfl⟩
    rw [Scope.number?, atName_of_node wasNode isEntry atCategory] at atNode
    cases atNode
  · obtain ⟨rfl, rfl⟩ := (handsOver_iff found stored).1 handsOver
    subst isName
    refine ⟨entries, ?_, ?_⟩
    · rw [Scope.lookup?_eq, atName_of_node wasNode isEntry atNode]
      rfl
    · have atName : (middle.storing place (.dictionary (node.insert (Bytes.ascii "Resources")
          (.reference document.fresh)))).atName kind "Resources" =
            .ok (some (.reference document.fresh)) :=
        Scope.atName_inserting_self isNode (fun _ => key_ne kind)
          (agree.categoryNumber?.trans atNode) (key_eq_toBytes_iff.2 rfl)
      have isMoved := resolveWithId_reference (find?_moved isNumbered found stored)
      have looked := Scope.lookup?_eq (middle.storing place (.dictionary
        (node.insert (Bytes.ascii "Resources") (.reference document.fresh)))) kind "Resources"
      rw [atName] at looked
      refine looked.trans ?_
      show Scope.readEntry (document.attach place node "Resources" (.dictionary entries))
        (some (.reference document.fresh)) = _
      rw [Scope.readEntry, isMoved]
      rfl

include isNumbered found stored in
/-- The node that owns resources is fetched as before when an object is added. -/
theorem fetchStoredDictionary_add (value : Object) :
    (Document.add value document).2.fetchStoredDictionary owner = .ok (target, node) := by
  obtain ⟨_, _, was, again⟩ := exists_stored_of_findOwner isNumbered found
  exact again.trans (was.symm.trans stored)

include isNumbered found stored in
/-- A resource dictionary that is part of a node is taken from it. -/
theorem takeFromPage_of_dictionary :
    takeFromPage page document = .ok (.indirect document.fresh)
      (document.attach target node "Resources" (.dictionary entries)) := by
  have again := fetchStoredDictionary_add isNumbered found stored (.dictionary entries)
  simp only [takeFromPage, Change.bind_eq_ok, Change.get_eq_ok, Change.lift_eq_ok]
  refine ⟨_, _, ⟨rfl, rfl⟩, _, _, ⟨found, rfl⟩, ?_⟩
  simp only [Change.bind_eq_ok, Change.get_eq_ok, Change.lift_eq_ok, Change.always_eq_ok,
    Change.modify_eq_ok, Change.pure_eq_ok]
  exact ⟨_, _, ⟨rfl, rfl⟩, _, _, ⟨rfl, rfl⟩, _, _, ⟨again, rfl⟩, (), _, rfl, rfl, rfl⟩

/-- Resources that are an object of their own are taken as it. -/
theorem takeFromPage_of_reference
    (refers : findOwner document maxTreeDepth page = .ok (some (owner, .reference other)))
    (isThere : document.find? other = some (.dictionary entries)) :
    takeFromPage page document = .ok (.indirect other) document := by
  simp only [takeFromPage, Change.bind_eq_ok, Change.get_eq_ok, Change.lift_eq_ok]
  refine ⟨_, _, ⟨rfl, rfl⟩, _, _, ⟨refers, rfl⟩, ?_⟩
  simp only [Change.bind_eq_ok, Change.get_eq_ok, Change.lift_eq_ok]
  exact ⟨_, _, ⟨rfl, rfl⟩, ofEntry_reference isThere, rfl⟩

include isNumbered found in
/-- A page that has resources is no object that is added. -/
theorem fresh_ne_page : document.fresh ≠ page := by
  obtain ⟨own, fetched, _⟩ := bind_eq_ok.1 found
  exact fresh_ne_of_find? isNumbered (find?_ne_none_of_fetchDictionary fetched)

include isNumbered isClosed found stored in
/-- Resources that were handed over are those of the page. -/
theorem findOwner_attach :
    findOwner (document.attach target node "Resources" (.dictionary entries)) maxTreeDepth page =
      .ok (some (owner, .reference document.fresh)) := by
  have agree := agree_add isNumbered isClosed (.dictionary entries)
  have isNode := find?_node isNumbered found stored
  obtain ⟨isEntry, _⟩ := node_of_owner found stored
  obtain ⟨sameOwner, _⟩ := findOwner_eq agree
    (find?_add_of_ne (.dictionary entries) (fresh_ne_page isNumbered found)).symm (isClosed page)
  have atNode : (Document.add (.dictionary entries) document).2.fetchedAt? owner = some target := by
    have again := fetchStoredDictionary_add isNumbered found stored (.dictionary entries)
    rw [fetchedAt?, (fetchStoredDictionary_eq_ok again).1]
  refine (findOwner_store isNode isEntry maxTreeDepth page).trans ?_
  rw [sameOwner, found]
  simp [atNode]

/-- **Moving resources changes nothing that is looked up.**  In a closed document the resources of a
page can be taken without any page noticing: each has resources as before, or fails as before, and
looks all names up as before, but for those that show the node itself.  The resources that were taken
are those that the page had, taking them again changes nothing, and the node that handed them over is
the only object that changed. -/
theorem takeFromPage_unseen {resources : Resources} (isNumbered : document.IsNumbered)
    (isClosed : document.IsClosed) (done : takeFromPage page document = .ok resources after) :
    (∀ other, document.fresh ≠ other →
      (∀ fault, ofPage document other = .error fault → ofPage after other = .error fault) ∧
      ∀ own, ofPage document other = .ok own → ∃ now, ofPage after other = .ok now ∧
        ∀ kind name, Scope.LooksUpAs (HandsOver document page) document.fresh
          ⟨document, own⟩ ⟨after, now⟩ kind name) ∧
    (∃ own, ofPage document page = .ok own ∧
      ∀ kind name, Scope.LooksUpAs (HandsOver document page) document.fresh
        ⟨document, own⟩ ⟨after, resources⟩ kind name) ∧
    takeFromPage page after = .ok resources after ∧
    ∀ target object, document.find? target = some object →
      ∃ now, after.find? target = some now ∧
        (now = object ∨ HandsOver document page target now) := by
  have takes : Takes document page (.ok resources after) := done ▸ takes_takeFromPage isNumbered
  have kept (target : ObjectId) (object : Object) (isThere : document.find? target = some object) :
      ∃ now, after.find? target = some now ∧
        (now = object ∨ HandsOver document page target now) := by
    obtain ⟨now, isNow, same | ⟨changed, handsOver, isChanged⟩⟩ :=
      (takes.changesOnly isNumbered).kept target object isThere
    · exact ⟨now, isNow, Or.inl same⟩
    · exact ⟨changed, isChanged, Or.inr handsOver⟩
  by_cases handing : ∃ target now, HandsOver document page target now
  · obtain ⟨target, _, owner, node, entries, found, stored, _⟩ := handing
    obtain ⟨rfl, rfl⟩ : Resources.indirect document.fresh = resources ∧
        document.attach target node "Resources" (.dictionary entries) = after := by
      simpa using (takeFromPage_of_dictionary isNumbered found stored).symm.trans done
    have asBefore {other : ObjectId} (isOther : document.fresh ≠ other) :=
      exists_ofPage_attach isNumbered isClosed found stored isOther
    refine ⟨fun other isOther => ⟨(asBefore isOther).1, fun own read => ?_⟩, ?_, ?_, kept⟩
    · obtain ⟨isOf, now, readAfter, becomes⟩ := (asBefore isOther).2 own read
      exact ⟨now, readAfter, looksUpAs_attach isNumbered isClosed found stored isOf becomes⟩
    · have read : ofPage document page = .ok (.direct entries) := bind_eq_ok.2 ⟨_, found, rfl⟩
      obtain ⟨isOf, _⟩ := (asBefore (fresh_ne_page isNumbered found)).2 _ read
      exact ⟨_, read, looksUpAs_attach isNumbered isClosed found stored isOf .object⟩
    · exact takeFromPage_of_reference (findOwner_attach isNumbered isClosed found stored)
        (find?_moved isNumbered found stored)
  · cases takes with
    | moved owner target node entries found stored =>
        exact absurd ⟨target, _, (handsOver_iff found stored).2 ⟨rfl, rfl⟩⟩ handing
    | inPlace _ read =>
        have unchanged (scope : Scope) (kind : ResourceKind) (name : String) :
            Scope.LooksUpAs (HandsOver document page) document.fresh scope scope kind name :=
          ⟨fun _ => rfl, fun target now handsOver => absurd ⟨target, now, handsOver⟩ handing,
            fun target now handsOver => absurd ⟨target, now, handsOver⟩ handing⟩
        exact ⟨fun other _ => ⟨fun _ => id, fun own read => ⟨own, read, unchanged _⟩⟩,
          ⟨resources, read, unchanged _⟩, done, kept⟩

/-- The parent of two pages, with resources for both. -/
def family : Document :=
  let spaces := Object.dictionary (Dictionary.ofEntries [("Cs1", .reference ⟨4, 0⟩)])
  let parent := Dictionary.ofEntries [("Type", .named "Pages"),
    ("Kids", .array [.reference ⟨2, 0⟩, .reference ⟨3, 0⟩]),
    ("Resources", .dictionary (Dictionary.ofEntries [("ColorSpace", spaces)]))]
  let page := Dictionary.ofEntries [("Type", .named "Page"), ("Parent", .reference ⟨1, 0⟩)]
  .ofObjects [(⟨1, 0⟩, .dictionary parent), (⟨2, 0⟩, .dictionary page),
    (⟨3, 0⟩, .dictionary page), (⟨4, 0⟩, .named "DeviceCMYK")] Table.empty

/-- After the resources of one page were taken from the parent, the other page has its color space, and
the resources can be taken again. -/
theorem takeFromPage_unseen_family :
    family.IsNumbered ∧ family.IsClosed ∧
    ∃ after, takeFromPage ⟨2, 0⟩ family = .ok (.indirect ⟨5, 0⟩) after ∧
      (∃ now, ofPage after ⟨3, 0⟩ = .ok now ∧
        (Scope.mk after now).lookup? .colorSpace "Cs1" =
          .ok (some ⟨some ⟨4, 0⟩, .named "DeviceCMYK"⟩)) ∧
      takeFromPage ⟨2, 0⟩ after = .ok (.indirect ⟨5, 0⟩) after := by
  have isNumbered : family.IsNumbered := isNumbered_ofObjects _ _
  have isClosed : family.IsClosed := isClosed_of_entries (by decide +kernel)
  obtain ⟨after, taken⟩ : ∃ after,
      takeFromPage ⟨2, 0⟩ family = .ok (.indirect ⟨5, 0⟩) after := ⟨_, rfl⟩
  obtain ⟨others, -, again, -⟩ := takeFromPage_unseen isNumbered isClosed taken
  obtain ⟨now, readAfter, looksUp⟩ := (others ⟨3, 0⟩ (by decide)).2 _ rfl
  refine ⟨isNumbered, isClosed, after, taken, ⟨now, readAfter,
    ((looksUp .colorSpace "Cs1").same fun target object handsOver => ?_).trans rfl⟩, again⟩
  obtain ⟨rfl, -⟩ := (handsOver_iff rfl rfl).1 handsOver
  decide +kernel

/-- A page that paints itself, and is a category of its resources. -/
def selfPainting : Document :=
  let painted := Object.dictionary (Dictionary.ofEntries [("N", .reference ⟨1, 0⟩)])
  let entries := Dictionary.ofEntries [("XObject", painted), ("Pattern", .reference ⟨1, 0⟩)]
  let page := Dictionary.ofEntries [("Type", .named "Page"), ("Resources", .dictionary entries)]
  .ofObjects [(⟨1, 0⟩, .dictionary page)] Table.empty

/-- A page with a resource whose number is above the highest one that the document records. -/
def unnumbered : Document :=
  let painted := Object.dictionary (Dictionary.ofEntries [("N", .reference ⟨2, 0⟩)])
  let entries := Dictionary.ofEntries [("XObject", painted)]
  let page := Dictionary.ofEntries [("Type", .named "Page"), ("Resources", .dictionary entries)]
  { Document.ofObjects [(⟨1, 0⟩, .dictionary page), (⟨2, 0⟩, .null)] Table.empty with highest := 1 }

/-- The number and the type of what was looked up, and the type of its entry for resources. -/
def shown (found : Outcome (Option Scope.Entry)) : Option (Option ObjectId × String × Option String) :=
  match found with
  | .ok (some ⟨location, value⟩) =>
    some (location, value.typeName,
      (value.entries?.bind (·.get? "Resources")).map Object.typeName)
  | _ => none

/-- A page that paints itself shows after its resources were taken that it refers to them, and so does
the category that it is.  A resource with too high a number is replaced by the resources. -/
theorem lookup?_takeFromPage_selfPainting :
    (selfPainting.IsNumbered ∧ selfPainting.IsClosed ∧
      ∃ own resources after, ofPage selfPainting ⟨1, 0⟩ = .ok own ∧
        takeFromPage ⟨1, 0⟩ selfPainting = .ok resources after ∧
        ofPage after ⟨1, 0⟩ = .ok resources ∧
        (Scope.mk after resources).lookup? .xobject "N" ≠
          (Scope.mk selfPainting own).lookup? .xobject "N" ∧
        (Scope.mk after resources).lookup? .pattern "Resources" ≠
          (Scope.mk selfPainting own).lookup? .pattern "Resources") ∧
    unnumbered.IsClosed ∧
      ∃ own resources after, ofPage unnumbered ⟨1, 0⟩ = .ok own ∧
        takeFromPage ⟨1, 0⟩ unnumbered = .ok resources after ∧
        (Scope.mk after resources).lookup? .xobject "N" ≠
          (Scope.mk unnumbered own).lookup? .xobject "N" := by
  refine ⟨⟨isNumbered_ofObjects _ _, isClosed_of_entries (by decide +kernel),
    _, _, _, rfl, rfl, rfl, fun same => ?_, fun same => ?_⟩,
    isClosed_of_entries (by decide +kernel), _, _, _, rfl, rfl, fun same => ?_⟩
  all_goals exact absurd (congrArg shown same) (by decide +kernel)

end Resources
end Monochrome
