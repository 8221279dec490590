import Monochrome.Proofs.Conversion.PageResources
import Monochrome.Proofs.Conversion.Sparing

/-!
# Pages whose conversion fails

A document is converted in place, and nothing is taken back after a failure.  A page whose content or
resources cannot be read leaves the document as it was.  Otherwise its resources may have become an
object of their own, and what the content used before the failure may be gray; everything else is left
as it was.
-/

namespace Monochrome
open Change

namespace Document

variable {document later : Document}

section Kept

variable (kept : ∀ target object, document.find? target = some object →
  later.find? target = some object)
include kept

/-- A chain from a stored object leads where it led if every object stays. -/
theorem fetchChain_of_kept {steps : Nat} {start : ObjectId} {object : Object}
    {result : ObjectId × Object} (fetched : document.fetchChain steps start object = .ok result) :
    later.fetchChain steps start object = .ok result := by
  induction steps generalizing start object with
  | zero =>
      cases isReference : object.isReference with
      | false => rwa [fetchChain_of_value isReference] at fetched ⊢
      | true =>
          cases object <;> simp [Object.isReference] at isReference
          obtain ⟨_, _, none, _⟩ := fetchChain_reference fetched
          cases none
  | succ steps inductionHypothesis =>
      cases isReference : object.isReference with
      | false => rwa [fetchChain_of_value isReference] at fetched ⊢
      | true =>
          cases object <;> simp [Object.isReference] at isReference
          obtain ⟨_, next, same, found, fetched⟩ := fetchChain_reference fetched
          obtain rfl := Nat.succ.inj same
          rw [fetchChain.eq_def]
          simpa only [kept _ next found] using inductionHypothesis fetched

/-- What is fetched from a number is fetched if every object stays. -/
theorem fetchStoredDictionary_of_kept {start location : ObjectId} {entries : Dictionary}
    (fetched : document.fetchStoredDictionary start = .ok (location, entries)) :
    later.fetchStoredDictionary start = .ok (location, entries) := by
  refine fetchStoredDictionary_of_fetchWithId ?_
  have was := (fetchStoredDictionary_eq_ok fetched).1
  unfold fetchWithId fetchWithin at was ⊢
  cases found : document.find? start with
  | none => simp [found] at was
  | some object =>
      simp only [found] at was
      simpa only [kept start object found] using fetchChain_of_kept kept was

end Kept

/-- What changes only what is touched changes only what may be. -/
theorem ChangesOnly.mono {touched wider : ObjectId → Prop} (changes : document.ChangesOnly touched later)
    (implies : ∀ target, touched target → wider target) : document.ChangesOnly wider later where
  highest := changes.highest
  kept target object found := by
    obtain ⟨now, isThere, isKept⟩ := changes.kept target object found
    exact ⟨now, isThere, isKept.imp_right (implies target)⟩
  added := changes.added

/-- A node that refers to an added object is changed, and nothing else. -/
theorem spares_attach {touched : ObjectId → Prop} {location : ObjectId} {node : Dictionary}
    {key : String} {value : Object} (stored : document.find? location = some (.dictionary node))
    (isNumbered : document.IsNumbered) (isTouched : touched location) :
    document.ChangesOnly touched (document.attach location node key value) := by
  have added : document.ChangesOnly touched (add value document).2 := spares_add value isNumbered
  obtain ⟨_, isThere, _⟩ := added.kept location _ stored
  exact added.trans (spares_store _ isThere isTouched (added.isNumbered isNumbered))

end Document

namespace Resources

variable {document after : Document} {page : ObjectId}

/-- Whether an object is the node that hands its resource dictionary over to a new object when the
resources of a page are taken, as it is then. -/
def HandsOver (document : Document) (page target : ObjectId) (now : Object) : Prop :=
  ∃ owner node entries,
    findOwner document maxTreeDepth page = .ok (some (owner, .dictionary entries)) ∧
      document.fetchStoredDictionary owner = .ok (target, node) ∧
        now = .dictionary (node.set "Resources" (.reference document.fresh))

/-- How the resources of a page are taken. -/
inductive Takes (document : Document) (page : ObjectId) :
    EStateM.Result Fault Document Resources → Prop
  /-- They cannot be read. -/
  | unread (fault : Fault) (failed : ofPage document page = .error fault) :
      Takes document page (.error fault document)
  /-- They stay where they are. -/
  | inPlace (resources : Resources) (found : ofPage document page = .ok resources) :
      Takes document page (.ok resources document)
  /-- They are moved from a node to an object of their own. -/
  | moved (owner target : ObjectId) (node entries : Dictionary)
      (found : findOwner document maxTreeDepth page = .ok (some (owner, .dictionary entries)))
      (stored : document.fetchStoredDictionary owner = .ok (target, node)) :
      Takes document page (.ok (.indirect document.fresh)
        (document.attach target node "Resources" (.dictionary entries)))

/-- The node that owns resources is a dictionary, also after an object was added. -/
theorem exists_stored_of_findOwner (isNumbered : document.IsNumbered) {owner : ObjectId}
    {entry value : Object} (found : findOwner document maxTreeDepth page = .ok (some (owner, entry))) :
    ∃ target node, document.fetchStoredDictionary owner = .ok (target, node) ∧
      (Document.add value document).2.fetchStoredDictionary owner = .ok (target, node) := by
  obtain ⟨node, fetched, _⟩ := exists_node_of_findOwner found
  obtain ⟨target, fetched⟩ := Document.fetchDictionary_eq_ok.1 fetched
  have stored := Document.fetchStoredDictionary_of_fetchWithId fetched
  refine ⟨target, node, stored, Document.fetchStoredDictionary_of_kept (fun other object isThere => ?_)
    stored⟩
  have added : document.ChangesOnly (fun _ => False) (Document.add value document).2 :=
    Document.spares_add value isNumbered
  obtain ⟨_, now, same⟩ := added.kept other object isThere
  exact same.resolve_right id ▸ now

/-- The resources of a page are taken in one of these ways. -/
theorem takes_takeFromPage (isNumbered : document.IsNumbered) :
    Takes document page (takeFromPage page document) := by
  cases result : takeFromPage page document with
  | ok resources after =>
      simp only [takeFromPage, bind_eq_ok, get_eq_ok, lift_eq_ok] at result
      obtain ⟨_, _, ⟨rfl, rfl⟩, owner, _, ⟨found, rfl⟩, result⟩ := result
      split at result
      · simp only [bind_eq_ok, get_eq_ok, lift_eq_ok, always_eq_ok, modify_eq_ok, pure_eq_ok]
          at result
        obtain ⟨_, _, ⟨rfl, rfl⟩, _, _, ⟨rfl, rfl⟩, _, _, ⟨stored, rfl⟩, _, _, rfl, rfl, rfl⟩ := result
        obtain ⟨target, node, was, again⟩ := exists_stored_of_findOwner isNumbered found
        obtain rfl := Except.ok.inj (stored.symm.trans again)
        exact .moved _ target node _ found was
      · simp only [bind_eq_ok, get_eq_ok, lift_eq_ok] at result
        obtain ⟨_, _, ⟨rfl, rfl⟩, read, rfl⟩ := result
        exact .inPlace _ (Outcome.bind_eq_ok.2 ⟨_, found, read⟩)
      · obtain ⟨rfl, rfl⟩ := pure_eq_ok.1 result
        exact .inPlace _ (Outcome.bind_eq_ok.2 ⟨_, found, rfl⟩)
  | error fault after =>
      simp only [takeFromPage, bind_eq_error, get_eq_ok, get_eq_error, lift_eq_ok, lift_eq_error,
        false_or] at result
      obtain ⟨_, _, ⟨rfl, rfl⟩, ⟨failed, rfl⟩ | ⟨owner, _, ⟨found, rfl⟩, result⟩⟩ := result
      · exact .unread fault (Outcome.bind_eq_error.2 (Or.inl failed))
      · split at result
        · simp only [bind_eq_error, get_eq_ok, get_eq_error, lift_eq_ok, lift_eq_error, always_eq_ok,
            always_eq_error, modify_eq_error, pure_eq_error, false_or, or_false, and_false,
            exists_false] at result
          obtain ⟨_, _, ⟨rfl, rfl⟩, _, _, ⟨rfl, rfl⟩, failed, _⟩ := result
          obtain ⟨_, _, _, again⟩ := exists_stored_of_findOwner isNumbered found
          cases failed.symm.trans again
        · simp only [bind_eq_error, get_eq_ok, get_eq_error, lift_eq_error, false_or] at result
          obtain ⟨_, _, ⟨rfl, rfl⟩, failed, rfl⟩ := result
          exact .unread fault (Outcome.bind_eq_error.2 (Or.inr ⟨_, found, failed⟩))
        · exact (pure_eq_error.1 result).elim

end Resources

namespace Conversion

variable {document after : Document} {page : ObjectId} {content : Bytes} {fault : Fault}
  {touched : ObjectId → Prop}

/-- A page that does not get its new content is left, and the stream is added that it would have got. -/
theorem spares_setPageContent_of_error {compress : Bool}
    (failed : setPageContent page content compress document = .error fault after) :
    document.Spares touched after := by
  simp only [setPageContent, bind_eq_error, get_eq_ok, get_eq_error, lift_eq_ok, lift_eq_error,
    always_eq_ok, always_eq_error, modify_eq_error, false_or, or_false, and_false, exists_false]
    at failed
  obtain ⟨_, _, ⟨rfl, rfl⟩, _, _, ⟨rfl, rfl⟩, _, rfl⟩ := failed
  exact Document.spares_add _

/-- A conversion spares what it does not reach, whether it succeeds or fails. -/
theorem spares_withResources {job left : Job} {resources : Resources} :
    (∀ result, Job.withResources resources (contentToGray content) job = .ok result left →
      job.document.Spares (ContentReaches content ⟨job, resources⟩) left.document) ∧
    ∀ fault, Job.withResources resources (contentToGray content) job = .error fault left →
      job.document.Spares (ContentReaches content ⟨job, resources⟩) left.document := by
  have changes (isNumbered : job.document.IsNumbered) :
      job.document.ChangesOnly (ContentReaches content ⟨job, resources⟩)
        ((contentToGray content).outcome ⟨job, resources⟩).2.document :=
    changesOnly_contentToGray isNumbered
  unfold outcome EStateM.run at changes
  unfold Job.withResources
  cases done : contentToGray content ⟨job, resources⟩ with
  | ok bytes scene =>
      rw [done] at changes
      refine ⟨fun result same => ?_, fun fault same => ?_⟩
      · cases same
        exact changes
      · cases same
  | error reason scene =>
      rw [done] at changes
      refine ⟨fun result same => ?_, fun fault same => ?_⟩
      · cases same
      · cases same
        exact changes

/-- How the conversion of a page fails. -/
theorem convertPage_eq_error {job left : Job} (failed : convertPage page job = .error fault left) :
    (job.document.pageContent page = .error fault ∧ left = job) ∨
    ∃ content, job.document.pageContent page = .ok content ∧
      ((∃ taken, Resources.takeFromPage page job.document = .error fault taken ∧
          left = { job with document := taken }) ∨
        ∃ resources taken, Resources.takeFromPage page job.document = .ok resources taken ∧
          taken.Spares (ContentReaches content ⟨{ job with document := taken }, resources⟩)
            left.document) := by
  simp only [convertPage, bind_eq_error, get_eq_ok, get_eq_error, lift_eq_ok, lift_eq_error,
    Job.onDocument, within_eq_ok, within_eq_error, false_or] at failed
  obtain ⟨_, _, ⟨rfl, rfl⟩, ⟨unread, rfl⟩ | ⟨content, _, ⟨read, rfl⟩, failed⟩⟩ := failed
  · exact Or.inl ⟨unread, rfl⟩
  · refine Or.inr ⟨content, read, ?_⟩
    rcases failed with ⟨taken, failed, rfl⟩ | ⟨resources, _, ⟨taken, done, rfl⟩, failed⟩
    · exact Or.inl ⟨taken, failed, rfl⟩
    · refine Or.inr ⟨resources, taken, done, ?_⟩
      rcases failed with failed | ⟨_, _, converted, _, _, ⟨rfl, rfl⟩, changed, failed, rfl⟩
      · exact spares_withResources.2 fault failed
      · exact trans_of (Document.Spares _) (spares_withResources.1 _ converted)
          (spares_setPageContent_of_error failed)

/-- A page of a document is converted by a converter of its own, which fails where it does. -/
theorem convertPage_of_convertDocumentPage {options : Options}
    (failed : convertDocumentPage options page document = .error fault after) :
    ∃ left : Job, convertPage page ⟨document, { options := options }⟩ = .error fault left ∧
      left.document = after := by
  unfold convertDocumentPage convertFresh at failed
  split at failed
  · cases failed
  · next reason left converted =>
    cases failed
    simp only [convertPages, bind_eq_error, get_eq_error, pure_eq_error, and_false, exists_false,
      or_false] at converted
    have alone : [page].forM convertPage =
        (convertPage page >>= fun _ => pure ⟨⟩ : Change Job PUnit) := rfl
    simp only [alone, bind_eq_error, pure_eq_error, and_false, exists_false, or_false] at converted
    exact ⟨left, converted, rfl⟩

end Conversion

/-- Taking the resources of a page changes nothing but the node that hands them over. -/
theorem Resources.Takes.changesOnly {document taken : Document} {page : ObjectId}
    {resources : Resources} (takes : Takes document page (.ok resources taken))
    (isNumbered : document.IsNumbered) :
    document.ChangesOnly
      (fun target => ∃ now, HandsOver document page target now ∧ taken.find? target = some now)
      taken := by
  cases takes with
  | inPlace => exact .refl _
  | moved owner target node entries found stored =>
      refine Document.spares_attach (Document.fetchStoredDictionary_eq_ok stored).2 isNumbered ?_
      exact ⟨_, ⟨owner, node, entries, found, stored, rfl⟩, Document.find?_attach.trans (if_pos rfl)⟩

/-- Resources that are taken can be read. -/
theorem Resources.Takes.ofPage {document taken : Document} {page : ObjectId} {resources : Resources}
    (takes : Takes document page (.ok resources taken)) :
    ∃ own, Resources.ofPage document page = .ok own := by
  cases takes with
  | inPlace _ found => exact ⟨resources, found⟩
  | moved owner target node entries found stored =>
      exact ⟨.direct entries, Outcome.bind_eq_ok.2 ⟨_, found, rfl⟩⟩

namespace Conversion

/-- Content that paints a shading and then sets a color with too few operands. -/
def brokenContent : Bytes :=
  Bytes.ascii "/S sh 1 0 rg"

/-- A page with this content. -/
def halfway : Document :=
  let page := Dictionary.ofEntries [("Type", .named "Page"), ("Resources", .reference ⟨3, 0⟩),
    ("Contents", .reference ⟨2, 0⟩)]
  let shadings := Object.dictionary (Dictionary.ofEntries [("S", .reference ⟨4, 0⟩)])
  let shading := Dictionary.ofEntries [("ShadingType", .integer 2), ("ColorSpace", .named "DeviceRGB")]
  .ofObjects [(⟨1, 0⟩, .dictionary page),
    (⟨2, 0⟩, (Stream.ofData Table.empty brokenContent).toObject),
    (⟨3, 0⟩, .dictionary (Dictionary.ofEntries [("Shading", shadings)])),
    (⟨4, 0⟩, .dictionary shading)] Table.empty

/-- The name of the color space of the shading. -/
def shadingSpace? (document : Document) : Option String :=
  (((document.find? ⟨4, 0⟩).bind Object.entries?).bind (·.get? "ColorSpace")).bind Object.text?

/-- The document that a conversion leaves if it fails. -/
def leftByFailure? (result : EStateM.Result Fault Document Statistics) : Option Document :=
  match result with
  | .ok _ _ => none
  | .error _ document => some document

/-- The conversion of the page fails after the color space of the shading was replaced. -/
theorem exists_failure_halfway :
    ∃ fault after, convertDocumentPage {} ⟨1, 0⟩ halfway = .error fault after ∧
      shadingSpace? after = none := by
  have computed : (leftByFailure? (convertDocumentPage {} ⟨1, 0⟩ halfway)).map shadingSpace? =
      some none := by
    decide +kernel
  cases converted : convertDocumentPage {} ⟨1, 0⟩ halfway with
  | ok statistics after => simp [converted, leftByFailure?] at computed
  | error fault after =>
      rw [converted] at computed
      exact ⟨fault, after, rfl, Option.some.inj computed⟩

end Conversion
end Monochrome
