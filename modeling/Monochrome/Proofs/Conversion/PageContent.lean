import Monochrome.Proofs.Conversion.PageResources
import Monochrome.Proofs.Image.Encoding

/-!
# New content of pages

A page gets its new content as a stream of its own, to which its node refers.  The content is read
back as it was written, also after other pages got theirs.
-/

namespace Monochrome

/-- The stream of content that a page gets. -/
def Stream.ofPage (content : Bytes) (compress : Bool) : Stream :=
  (Stream.ofData Table.empty []).setContent content compress

namespace Stream

variable {content : Bytes} {compress : Bool}

/-- The stream of a page refers to nothing, so it is a part of content in every document. -/
theorem fits_ofPage (role : ObjectId → Role) :
    (ofPage content compress).toObject.fits role .shared = true := by
  have number {entries : Dictionary} (fits : entries.Fits role .shared) (length : Int64) :
      (entries.set "Length" (.integer length)).Fits role .shared :=
    fits.insert (by simp [Object.fits])
  have base : Dictionary.Fits role .shared (Dictionary.set Table.empty "Length" (.integer 0)) :=
    number (Dictionary.fits_empty _ _) 0
  have filtered : Dictionary.Fits role .shared
      ((Dictionary.set Table.empty "Length" (.integer 0)).set "Filter" (.named Filter.flate.name)) :=
    base.insert (by simp [Object.named, Object.fits])
  refine Object.fits_stream_iff.2 ?_
  cases compress with
  | false => exact number base _
  | true => exact number filtered _

/-- The content of a page is read back as it was written. -/
theorem content_ofPage (document : Document) :
    (ofPage content compress).content document = .ok content := by
  have decoded : (ofPage content compress).decode document = .ok ⟨content, none⟩ := by
    cases compress with
    | false =>
        have describes : ImageEncoder.Describes (ofPage content false).entries [] :=
          ⟨rfl, rfl, fun _ => rfl, fun _ => rfl⟩
        rw [Stream.decode, describes.describesIn.chain]
        rfl
    | true =>
        have describes : ImageEncoder.Describes (ofPage content true).entries ImageEncoder.flate :=
          ⟨rfl, rfl, fun _ => rfl, fun _ => rfl⟩
        have inflated : Filter.flate.decode {} (Deflate.encode content) = .ok content := by
          rw [Filter.decode, Deflate.decode_encode]
          rfl
        rw [Stream.decode, describes.describesIn.chain]
        show (Filter.flate.decode {} (Deflate.encode content) >>= fun data =>
          Filter.decodeChain document [] data) = _
        rw [inflated]
        rfl
  rw [Stream.content, decoded]
  rfl

end Stream

namespace Layout.Became

variable {start layout : Layout} {written : List (ObjectId × Stream)} {former : FormerSpaces}
variable {document after : Document} {page location place : ObjectId} {before now first : Object}
variable (became : start.Became layout written former document)
include became

/-! ## Writing content -/

/-- A page gets a stream of content as an object of its own. -/
theorem attachContent {node : Dictionary} {stream : Stream} (placed : start.role place = .node)
    (atPlace : document.find? place = some (.dictionary node))
    (isNew : place ∉ written.map Prod.fst)
    (fits : stream.toObject.fits layout.role .shared = true) :
    ∃ other, start.Became other ((place, stream) :: written) former
      (document.attach place node "Contents" stream.toObject) := by
  have isLoose : layout.role document.fresh = .loose := became.stands.keeps.isLoose_of_highest
  have placedNow : layout.role place = .node := by
    rw [became.grows.roles place (by simp [placed]), placed]
  have storedNow := (became.stands.find?_node placedNow).trans atPlace
  refine ⟨layout.attach document.fresh place .shared
    (node.set "Contents" (.reference document.fresh)) stream.toObject,
    became.grows.attach isLoose placed storedNow ?_ ?_ ?_,
    became.stands.attach placedNow atPlace rfl (.inr rfl) fits rfl, became.fits⟩
  · exact fun target among => List.mem_cons_of_mem _ among
  · intro before nodeFrom
    exact {
      parent := (get?_set_of_ne (by decide)).trans nodeFrom.parent
      resources := by
        rw [get?_set_of_ne (by decide)]
        exact rel_mono nodeFrom.resources fun _ _ => .attach isLoose placedNow
      contents := fun notConverted => absurd List.mem_cons_self notConverted }
  · intro target other among
    rcases List.mem_cons.mp among with same | among
    · cases same
      exact .inr ⟨rfl, document.fresh, get?_set_self, .inl ⟨rfl, rfl, rfl⟩⟩
    · exact .inl ⟨fun same => isNew (same ▸ List.mem_map.mpr ⟨_, among, rfl⟩), among⟩

/-- A page gets its new content where it was stored at first. -/
theorem setPageContent {content : Bytes} {compress : Bool} (isNode : start.role page = .node)
    (isNew : ∀ place node, start.original.fetchStoredDictionary page = .ok (place, node) →
      place ∉ written.map Prod.fst)
    (done : Conversion.setPageContent page content compress document = .ok ⟨⟩ after) :
    ∃ other place node, start.original.fetchStoredDictionary page = .ok (place, node) ∧
      start.Became other ((place, .ofPage content compress) :: written) former after := by
  simp only [Conversion.setPageContent, Change.bind_eq_ok, Change.get_eq_ok, Change.lift_eq_ok,
    Change.always_eq_ok, Change.modify_eq_ok] at done
  obtain ⟨_, _, ⟨rfl, rfl⟩, _, _, ⟨rfl, rfl⟩, ⟨place, node⟩, _, ⟨stored, rfl⟩, rfl⟩ := done
  obtain ⟨first, was, placed, atPlace⟩ := became.fetchStoredDictionary_add isNode stored
  obtain ⟨other, becomes⟩ :=
    became.attachContent placed atPlace (isNew place first was) (Stream.fits_ofPage layout.role)
  exact ⟨other, place, first, was, becomes⟩

/-! ## Reading content back -/

omit became in
/-- A value that became another one is the end of a chain like it. -/
theorem fetchChain_of_value {isConverted : Prop} {steps : Nat} (isValue : before.isReference = false)
    (objectFrom : layout.ObjectFrom isConverted before now)
    (was : start.original.fetchChain steps location before = .ok (place, first)) :
    ∃ value, document.fetchChain steps location now = .ok (place, value) := by
  have nowValue : now.isReference = false := by
    cases objectFrom with
    | same => exact isValue
    | node => rfl
  rw [Document.fetchChain_of_value isValue] at was
  cases was
  exact ⟨now, Document.fetchChain_of_value nowValue⟩

/-- A chain of references from a node leads as far as it did at first. -/
theorem fetchChain_of_start {steps : Nat} (isNode : start.role location = .node)
    (wasStored : start.original.find? location = some before)
    (stored : document.find? location = some now)
    (was : start.original.fetchChain steps location before = .ok (place, first)) :
    ∃ value, document.fetchChain steps location now = .ok (place, value) := by
  induction steps generalizing location before now with
  | zero =>
      have related := became.find?_node isNode
      rw [stored, wasStored] at related
      obtain ⟨objectFrom⟩ := related
      cases isReference : before.isReference with
      | false => exact fetchChain_of_value isReference objectFrom was
      | true =>
          cases before <;> simp [Object.isReference] at isReference
          obtain ⟨_, _, none, -⟩ := Document.fetchChain_reference was
          cases none
  | succ steps inductionHypothesis =>
      have related := became.find?_node isNode
      rw [stored, wasStored] at related
      obtain ⟨objectFrom⟩ := related
      cases isReference : before.isReference with
      | false => exact fetchChain_of_value isReference objectFrom was
      | true =>
          cases before <;> simp [Object.isReference] at isReference
          rename_i target
          cases objectFrom with
          | same =>
              obtain ⟨_, next, same, wasNext, later⟩ := Document.fetchChain_reference was
              obtain rfl := Nat.succ.inj same
              have targetNode := became.isNode_of_reference isNode wasStored
              have related := became.find?_node targetNode
              rw [wasNext] at related
              cases isNext : document.find? target with
              | none =>
                  rw [isNext] at related
                  cases related
              | some following =>
                  obtain ⟨value, reached⟩ := inductionHypothesis targetNode wasNext isNext later
                  refine ⟨value, ?_⟩
                  rw [Document.fetchChain.eq_def]
                  dsimp only
                  rw [isNext]
                  exact reached

/-- The dictionary under the number of a node is where it was at first. -/
theorem fetchStoredDictionary_of_start {node : Dictionary} (isNode : start.role page = .node)
    (was : start.original.fetchStoredDictionary page = .ok (place, node)) :
    ∃ node, document.fetchDictionary page = .ok node ∧
      document.find? place = some (.dictionary node) := by
  obtain ⟨⟨location, first⟩, fetched, isDictionary⟩ := Outcome.bind_eq_ok.1 was
  obtain ⟨entries, isEntries, same⟩ := Outcome.bind_eq_ok.1 isDictionary
  obtain ⟨rfl, rfl⟩ := Prod.mk.inj (Outcome.pure_eq_ok.1 same)
  have wasFetched := fetched
  unfold Document.fetchWithId Document.fetchWithin at fetched
  cases wasStored : start.original.find? page with
  | none =>
      rw [wasStored] at fetched
      cases fetched
  | some before =>
      rw [wasStored] at fetched
      have related := became.find?_node isNode
      rw [wasStored] at related
      cases stored : document.find? page with
      | none =>
          rw [stored] at related
          cases related
      | some now =>
          obtain ⟨value, reached⟩ := became.fetchChain_of_start isNode wasStored stored fetched
          have fetchedNow : document.fetchWithId page = .ok (location, value) := by
            rw [Document.fetchWithId, Document.fetchWithin, stored]
            exact reached
          obtain ⟨again, wasAgain, -, atPlace, -, objectFrom⟩ := became.fetchWithId isNode fetchedNow
          cases wasFetched.symm.trans wasAgain
          have isFirst : first = .dictionary entries := by
            cases first with
            | dictionary others => exact congrArg Object.dictionary (Except.ok.inj isEntries)
            | _ => cases isEntries
          subst isFirst
          cases objectFrom with
          | same _ notDictionary => cases notDictionary
          | node _ now _ =>
              refine ⟨now, ?_, atPlace⟩
              rw [Document.fetchDictionary, Document.fetch, fetchedNow]
              rfl

/-- The content that a page got is read. -/
theorem pageContent_written {node : Dictionary} {content : Bytes} {compress : Bool}
    (isNode : start.role page = .node)
    (was : start.original.fetchStoredDictionary page = .ok (place, node))
    (among : (place, Stream.ofPage content compress) ∈ written) :
    document.pageContent page = .ok content := by
  obtain ⟨now, fetched, atPlace⟩ := became.fetchStoredDictionary_of_start isNode was
  obtain ⟨placed, other, target, wasNode, isEntry, isShared, wasStream⟩ :=
    became.grows.contents place _ among
  have placedNow : layout.role place = .node := by
    rw [became.grows.roles place (by simp [placed]), placed]
  have stored : document.find? target = some (Stream.ofPage content compress).toObject := by
    rw [← became.stands.find?_shared isShared, wasStream]
  rw [became.stands.find?_node placedNow, atPlace] at wasNode
  cases wasNode
  have isTarget : document.contentsOf Document.contentsLimit (.reference target) = [target] := by
    rw [Document.contentsLimit, Document.contentsOf, stored]
    rfl
  have fetchedStream : document.fetch target = .ok (Stream.ofPage content compress).toObject := by
    rw [Document.fetch, Document.fetchWithId_of_value stored rfl]
    rfl
  rw [Document.pageContent, Document.pageContents_of_fetch fetched, isEntry, Option.map_some,
    Option.getD_some, isTarget]
  refine Outcome.bind_eq_ok.2 ⟨content, ?_, rfl⟩
  refine Outcome.bind_eq_ok.2 ⟨_, fetchedStream, Outcome.bind_eq_ok.2 ⟨_, rfl, ?_⟩⟩
  exact Outcome.bind_eq_ok.2 ⟨content, Stream.content_ofPage document, rfl⟩

end Layout.Became
end Monochrome
