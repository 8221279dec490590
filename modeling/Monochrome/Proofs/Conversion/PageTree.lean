import Monochrome.Proofs.Conversion.Growing

/-!
# Pages read while others are converted

A page that is still to be converted is read as it was at first: its content is the same, and its
resources are the ones that it had, or an object of their own with the same entries.
-/

namespace Monochrome
/-- Resources are found at a node or further up. -/
theorem Resources.findOwner_succ {document : Document} {target : ObjectId} {node : Dictionary}
    {depth : Nat} (fetched : document.fetchDictionary target = .ok node) :
    findOwner document (depth + 1) target =
      match node.get? "Resources", node.get? "Parent" with
      | some entry, _ => .ok (some (target, entry))
      | none, some (.reference parent) => findOwner document depth parent
      | none, _ => .ok none := by
  rw [findOwner, fetched]
  rfl

/-- The content that was read before, and that of another stream behind it. -/
def Document.joinStream (document : Document) (content : Bytes) (target : ObjectId) :
    Outcome Bytes := do
  let stream ← (← document.fetch target).asStream
  return joinContent content (← stream.content document)

/-- The content of a page is joined from that of its streams. -/
theorem Document.pageContent_eq (document : Document) (page : ObjectId) :
    document.pageContent page = (document.pageContents page).foldlM document.joinStream [] :=
  rfl

/-- The streams of a page are those that its entry for content names. -/
theorem Document.pageContents_of_fetch {document : Document} {page : ObjectId} {node : Dictionary}
    (fetched : document.fetchDictionary page = .ok node) :
    document.pageContents page =
      ((node.get? "Contents").map (document.contentsOf contentsLimit)).getD [] := by
  rw [pageContents, fetched]

namespace Layout

/-- Whether a document came from that of a layout by converting pages, which got new content at
their places. -/
structure Became (start layout : Layout) (written : List (ObjectId × Stream))
    (former : FormerSpaces) (document : Document) : Prop where
  grows : start.Grows layout written
  stands : layout.Stands former document
  fits : start.original.Fits start.role

namespace Became

variable {start layout : Layout} {written : List (ObjectId × Stream)} {former : FormerSpaces}
variable {document : Document} {page location place : ObjectId} {before now value : Object}
variable (became : start.Became layout written former document)
include became

/-! ## Nodes -/

/-- What is a node now is one as it was at first, up to what a node may become. -/
theorem find?_node (isNode : start.role page = .node) :
    Option.Rel (layout.ObjectFrom (page ∈ written.map Prod.fst)) (start.original.find? page)
      (document.find? page) := by
  have isNodeNow : layout.role page = .node := by
    rw [became.grows.roles page (by simp [isNode]), isNode]
  rw [← became.stands.find?_node isNodeNow]
  exact became.grows.nodes page isNode

/-- What a node refers to as a node is one. -/
theorem isNode_of_reference {target : ObjectId} (isNode : start.role page = .node)
    (stored : start.original.find? page = some (.reference target)) : start.role target = .node := by
  have fits := became.fits _ _ stored
  rw [isNode, Object.fits_reference] at fits
  exact Role.eq_of_allows fits ⟨by decide, by decide⟩

/-- A chain of references from a node leads to the node to which it led at first. -/
theorem fetchChain {steps : Nat} (isNode : start.role location = .node)
    (stored : document.find? location = some now)
    (found : document.fetchChain steps location now = .ok (place, value)) :
    ∃ before first, start.original.find? location = some before ∧
      start.original.fetchChain steps location before = .ok (place, first) ∧
        start.role place = .node ∧ document.find? place = some value ∧
          start.original.find? place = some first ∧
            layout.ObjectFrom (place ∈ written.map Prod.fst) first value := by
  induction steps generalizing location now with
  | zero =>
      have related := became.find?_node isNode
      rw [stored] at related
      obtain ⟨before, was, objectFrom⟩ := exists_of_rel related
      rw [Document.fetchChain.eq_def] at found
      cases now with
      | reference target =>
          dsimp only at found
          cases isTarget : document.find? target <;> rw [isTarget] at found <;> cases found
      | _ =>
          cases found
          refine ⟨before, before, was, ?_, isNode, stored, was, objectFrom⟩
          cases objectFrom <;> rfl
  | succ steps inductionHypothesis =>
      have related := became.find?_node isNode
      rw [stored] at related
      obtain ⟨before, was, objectFrom⟩ := exists_of_rel related
      rw [Document.fetchChain.eq_def] at found
      cases now with
      | reference target =>
          have isReference : before = .reference target := by
            cases objectFrom
            rfl
          subst isReference
          have targetNode := became.isNode_of_reference isNode was
          dsimp only at found
          cases isTarget : document.find? target with
          | none =>
              rw [isTarget] at found
              cases found
          | some next =>
              rw [isTarget] at found
              obtain ⟨atTarget, first, wasTarget, reached, placed⟩ :=
                inductionHypothesis targetNode isTarget found
              refine ⟨_, first, was, ?_, placed⟩
              rw [Document.fetchChain.eq_def]
              dsimp only
              rw [wasTarget]
              exact reached
      | _ =>
          cases found
          refine ⟨before, before, was, ?_, isNode, stored, was, objectFrom⟩
          cases objectFrom <;> rfl

/-- The object under the number of a node is where it was at first. -/
theorem fetchWithId (isNode : start.role page = .node)
    (found : document.fetchWithId page = .ok (place, value)) :
    ∃ first, start.original.fetchWithId page = .ok (place, first) ∧
      start.role place = .node ∧ document.find? place = some value ∧
        start.original.find? place = some first ∧
          layout.ObjectFrom (place ∈ written.map Prod.fst) first value := by
  unfold Document.fetchWithId Document.fetchWithin at found ⊢
  cases stored : document.find? page with
  | none =>
      rw [stored] at found
      cases found
  | some now =>
      rw [stored] at found
      obtain ⟨before, first, was, reached, placed⟩ := became.fetchChain isNode stored found
      exact ⟨first, by rw [was]; exact reached, placed⟩

/-- The dictionary under the number of a node is where it was at first. -/
theorem fetchStoredDictionary {node : Dictionary} (isNode : start.role page = .node)
    (found : document.fetchStoredDictionary page = .ok (place, node)) :
    ∃ first : Dictionary, start.original.fetchStoredDictionary page = .ok (place, first) ∧
      start.role place = .node ∧ document.find? place = some (.dictionary node) ∧
        start.original.find? place = some (.dictionary first) ∧
          layout.NodeFrom (place ∈ written.map Prod.fst) first node := by
  obtain ⟨⟨location, value⟩, fetched, isNodeNow⟩ := Outcome.bind_eq_ok.1 found
  obtain ⟨entries, isEntries, same⟩ := Outcome.bind_eq_ok.1 isNodeNow
  obtain ⟨rfl, rfl⟩ := Prod.mk.inj (Outcome.pure_eq_ok.1 same)
  cases value with
  | dictionary entries =>
      cases isEntries
      obtain ⟨first, reached, placed, stored, was, objectFrom⟩ := became.fetchWithId isNode fetched
      cases objectFrom with
      | same _ notDictionary => cases notDictionary
      | node first _ nodeFrom =>
          refine ⟨first, ?_, placed, stored, was, nodeFrom⟩
          rw [Document.fetchStoredDictionary, reached]
          rfl
  | _ => cases isEntries

/-- The dictionary under the number of a node is what it was at first. -/
theorem fetchDictionary {node : Dictionary} (isNode : start.role page = .node)
    (found : document.fetchDictionary page = .ok node) :
    ∃ (place : ObjectId) (first : Dictionary),
      start.original.fetchStoredDictionary page = .ok (place, first) ∧
        start.original.fetchDictionary page = .ok first ∧
          document.fetchStoredDictionary page = .ok (place, node) := by
  obtain ⟨object, fetched, isEntries⟩ := Outcome.bind_eq_ok.1 found
  obtain ⟨⟨place, value⟩, reached, same⟩ := Outcome.bind_eq_ok.1 fetched
  obtain rfl := Outcome.pure_eq_ok.1 same
  have stored : document.fetchStoredDictionary page = .ok (place, node) :=
    Outcome.bind_eq_ok.2 ⟨_, reached, Outcome.bind_eq_ok.2 ⟨node, isEntries, rfl⟩⟩
  obtain ⟨first, was, -⟩ := became.fetchStoredDictionary isNode stored
  refine ⟨place, first, was, ?_, stored⟩
  obtain ⟨⟨location, object⟩, wasFetched, isFirst⟩ := Outcome.bind_eq_ok.1 was
  obtain ⟨entries, wasEntries, same⟩ := Outcome.bind_eq_ok.1 isFirst
  obtain ⟨rfl, rfl⟩ := Prod.mk.inj (Outcome.pure_eq_ok.1 same)
  exact Outcome.bind_eq_ok.2 ⟨_, Outcome.bind_eq_ok.2 ⟨_, wasFetched, rfl⟩, wasEntries⟩

/-! ## Resources of a page -/

/-- The owner of the resources of a page is the node that it was at first, and has what it had. -/
theorem findOwner {depth : Nat} {owner : Option (ObjectId × Object)}
    (isNode : start.role page = .node)
    (found : Resources.findOwner document depth page = .ok owner) :
    ∃ first, Resources.findOwner start.original depth page = .ok first ∧
      Option.Rel (fun was now => was.1 = now.1 ∧ start.role was.1 = .node ∧
        was.2.fits start.role .resources = true ∧ layout.EntryFrom was.2 now.2) first owner := by
  induction depth generalizing page with
  | zero =>
      cases found
      exact ⟨none, rfl, .none⟩
  | succ depth inductionHypothesis =>
      obtain ⟨node, fetched, found⟩ := Outcome.bind_eq_ok.1 found
      obtain ⟨place, first, wasStored, wasFetched, stored⟩ := became.fetchDictionary isNode fetched
      obtain ⟨first', wasStored', placed, nowStored, was, nodeFrom⟩ :=
        became.fetchStoredDictionary isNode stored
      cases wasStored.symm.trans wasStored'
      have nodeFits := became.fits _ _ was
      rw [placed, Object.fits_dictionary_iff] at nodeFits
      rw [Resources.findOwner_succ wasFetched]
      have resources := nodeFrom.resources
      have wasParent := nodeFrom.parent
      cases isEntry : node.get? "Resources" with
      | some entry =>
          rw [isEntry] at found resources
          obtain ⟨wasEntry, isWas, entryFrom⟩ := exists_of_rel resources
          cases found
          refine ⟨some (page, wasEntry), by rw [isWas], .some ⟨rfl, isNode, ?_, entryFrom⟩⟩
          exact nodeFits.find isWas
      | none =>
          rw [isEntry] at found resources
          have noEntry := eq_none_of_rel resources
          rw [noEntry, ← wasParent]
          cases isParent : node.get? "Parent" with
          | none =>
              rw [isParent] at found
              cases found
              exact ⟨none, rfl, .none⟩
          | some parent =>
              rw [isParent] at found
              cases parent with
              | reference target =>
                  have parentFits := nodeFits.find (wasParent.symm.trans isParent)
                  exact inductionHypothesis
                    (Role.eq_of_allows parentFits ⟨by decide, by decide⟩) found
              | _ =>
                  cases found
                  exact ⟨none, rfl, .none⟩

/-! ## Content of a page -/

/-- A part of content is what it was at first. -/
theorem find?_shared {target : ObjectId} (isShared : start.role target = .shared) :
    document.find? target = start.original.find? target := by
  have isSharedNow : layout.role target = .shared := by
    rw [became.grows.roles target (by simp [isShared]), isShared]
  have wasSame := became.grows.same target (by simp [isShared]) (by simp [isShared])
  exact (became.stands.find?_shared isSharedNow).symm.trans wasSame

/-- The documents agree on the parts of content. -/
theorem agree : document.Agree start.IsShared start.original :=
  (became.fits.agree fun _ isShared => (became.find?_shared isShared).symm).symm

/-- The streams that an entry for content names are those that it named at first. -/
theorem contentsOf (limit : Nat) {object : Object} (fits : object.fits start.role .shared = true) :
    document.contentsOf limit object = start.original.contentsOf limit object ∧
      ∀ target ∈ start.original.contentsOf limit object, start.role target = .shared := by
  have isShared {target : ObjectId} (fits : (Object.reference target).fits start.role .shared) :
      start.role target = .shared :=
    Role.eq_of_allows fits ⟨by decide, by decide⟩
  induction limit generalizing object with
  | zero => exact ⟨rfl, by simp [Document.contentsOf]⟩
  | succ limit inductionHypothesis =>
      cases object with
      | reference target =>
          have same := became.find?_shared (isShared fits)
          simp only [Document.contentsOf, same]
          cases stored : start.original.find? target with
          | none =>
              refine ⟨rfl, fun other among => ?_⟩
              cases List.mem_singleton.mp among
              exact isShared fits
          | some next =>
              cases next with
              | stream entries data =>
                  refine ⟨rfl, fun other among => ?_⟩
                  cases List.mem_singleton.mp among
                  exact isShared fits
              | _ => exact inductionHypothesis (became.fits.stored fits stored)
      | array items =>
          refine ⟨rfl, fun target among => ?_⟩
          obtain ⟨item, isItem, isTarget⟩ := List.mem_filterMap.mp among
          have itemFits := Object.fits_array_iff.mp fits item isItem
          cases item with
          | reference other =>
              cases isTarget
              exact isShared itemFits
          | _ => cases isTarget
      | _ => exact ⟨rfl, by simp [Document.contentsOf]⟩

/-- A stream of content is where it was at first. -/
theorem fetch_shared {target : ObjectId} (isShared : start.role target = .shared) :
    document.fetch target = start.original.fetch target := by
  have same (other : ObjectId) (allowed : Role.shared.allows (start.role other) = true) :
      document.find? other = start.original.find? other :=
    became.find?_shared (Role.eq_of_allows allowed ⟨by decide, by decide⟩)
  have fetched := became.fits.fetchWithId_eq same (by rw [isShared]; decide)
  rw [Document.fetch, Document.fetch, fetched]

/-- What is fetched as a part of content is one. -/
theorem isShared_of_fetch {target : ObjectId} {object : Object}
    (isShared : start.role target = .shared) (fetched : start.original.fetch target = .ok object) :
    start.IsShared object := by
  obtain ⟨⟨place, value⟩, reached, same⟩ := Outcome.bind_eq_ok.1 fetched
  obtain rfl := Outcome.pure_eq_ok.1 same
  have stored := (Document.fetchWithId_eq_ok reached).2
  refine became.fits.stored (became.fits.fetchWithId ?_ reached) stored
  rw [isShared]
  decide

/-- A stream of content is read as it was at first. -/
theorem carries_joinStream {target : ObjectId} (isShared : start.role target = .shared)
    (content : Bytes) :
    Outcome.Carries (document.joinStream content target)
      (start.original.joinStream content target) := by
  unfold Document.joinStream
  rw [became.fetch_shared isShared]
  refine (Outcome.Carries.refl _).bind fun object fetched => ?_
  have objectShared := became.isShared_of_fetch isShared fetched
  refine (Outcome.Carries.refl _).bind fun stream isStream => ?_
  cases object with
  | stream entries data =>
      cases isStream
      have holds := Document.holds_of_entries? became.agree.leads objectShared rfl
      exact (Stream.carries_content became.agree.leads holds).bind fun _ _ => .refl _
  | _ => cases isStream

/-- The content of a page that is still to be converted is what it was at first. -/
theorem pageContent {node : Dictionary} {content : Bytes} (isNode : start.role page = .node)
    (fetched : document.fetchDictionary page = .ok node)
    (notConverted : ∀ place first, document.fetchStoredDictionary page = .ok (place, first) →
      place ∉ written.map Prod.fst)
    (found : document.pageContent page = .ok content) :
    start.original.pageContent page = .ok content := by
  obtain ⟨place, first, wasStored, wasFetched, stored⟩ := became.fetchDictionary isNode fetched
  obtain ⟨_, again, placed, -, was, nodeFrom⟩ := became.fetchStoredDictionary isNode stored
  cases wasStored.symm.trans again
  have sameEntry := nodeFrom.contents (notConverted place node stored)
  have nodeFits := became.fits _ _ was
  rw [placed, Object.fits_dictionary_iff] at nodeFits
  rw [Document.pageContent_eq, Document.pageContents_of_fetch fetched, sameEntry] at found
  rw [Document.pageContent_eq, Document.pageContents_of_fetch wasFetched]
  cases isEntry : first.get? "Contents" with
  | none =>
      rw [isEntry, Option.map_none, Option.getD_none, List.foldlM_nil] at found
      rw [Option.map_none, Option.getD_none, List.foldlM_nil]
      exact found
  | some entry =>
      rw [isEntry] at found
      have same := became.contentsOf Document.contentsLimit (nodeFits.find isEntry)
      rw [Option.map_some, Option.getD_some, same.1] at found
      refine Outcome.Carries.foldlM (fun target among content => ?_) _ found
      exact became.carries_joinStream (same.2 target among) content

end Became
end Layout
end Monochrome
