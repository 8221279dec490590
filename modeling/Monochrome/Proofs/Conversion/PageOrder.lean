import Monochrome.Proofs.Conversion.PageByPage
import Monochrome.Proofs.Conversion.PageContent

/-!
# Pages in any order

Pages are converted one after the other by one converter.  Each becomes what a converter of its own
makes of it in the document as it was at first, whatever was converted before: its content and its
resources are read as they were, and what its names stood for is told by the document or remembered.
-/

namespace Monochrome

/-- Whether two pages are stored in different places. -/
def Document.Apart (document : Document) (page other : ObjectId) : Prop :=
  ∀ place node another, document.fetchStoredDictionary page = .ok (place, node) →
    document.fetchStoredDictionary other ≠ .ok (place, another)

/-- Whether no inline image of a page has a pattern space for its samples. -/
def Layout.HasPlainImages (layout : Layout) (page : ObjectId) : Prop :=
  ∀ content resources operations, layout.original.pageContent page = .ok content →
    Resources.ofPage layout.original page = .ok resources → Content.read content = .ok operations →
    ∀ operation ∈ operations, operation.HasPlainImage layout.IsShared ⟨layout.original, resources⟩

/-- A document in which nothing was converted is what it was. -/
theorem Layout.Became.refl {layout : Layout} (fits : layout.original.Fits layout.role)
    (known : ∀ target, layout.role target ≠ .loose → target.number ≤ layout.original.highest)
    (named : layout.OnlyNamed) : layout.Became layout [] Table.empty layout.original where
  grows := .refl layout
  stands := by
    refine ⟨⟨fits, known, fun target _ => ?_, by simp⟩, fits, named⟩
    cases layout.original.find? target with
    | none => exact .none
    | some object =>
        refine .some ?_
        unfold Follows
        cases layout.role target with
        | space => exact .kept (by simp)
        | spaces => exact .refl (by simp) object
        | resources => exact .refl (by simp) object
        | _ => rfl
  fits := fits

namespace Conversion
open Change

/-- What the content of a page becomes: that in gray, under the resources of the page. -/
def PageBecomes (options : Options) (document : Document) (page : ObjectId) (bytes : Bytes) : Prop :=
  ∃ content resources, document.pageContent page = .ok content ∧
    Resources.ofPage document page = .ok resources ∧
      grayContent options ⟨document, resources⟩ content = .ok bytes

variable {options : Options} {document after : Document} {page : ObjectId} {bytes other : Bytes}

/-- A change under resources of its own succeeds if it does in their scene. -/
theorem withResources_eq_ok {α : Type} {resources : Resources} {step : Change Scene α}
    {job left : Job} {value : α × Resources} :
    Job.withResources resources step job = .ok value left ↔
      ∃ scene, step ⟨job, resources⟩ = .ok value.1 scene ∧ value.2 = scene.resources ∧
        scene.toJob = left := by
  unfold Job.withResources
  cases step ⟨job, resources⟩ with
  | ok result scene =>
      constructor
      · rintro ⟨⟩
        exact ⟨scene, rfl, rfl, rfl⟩
      · obtain ⟨given, resources⟩ := value
        rintro ⟨_, ⟨⟩, rfl, rfl⟩
        rfl
  | error fault scene => simp

/-- The content of a page becomes one thing. -/
theorem PageBecomes.unique (becomes : PageBecomes options document page bytes)
    (again : PageBecomes options document page other) : bytes = other := by
  obtain ⟨content, resources, isContent, isResources, isGray⟩ := becomes
  obtain ⟨_, _, contentAgain, resourcesAgain, grayAgain⟩ := again
  cases isContent.symm.trans contentAgain
  cases isResources.symm.trans resourcesAgain
  exact Except.ok.inj (isGray.symm.trans grayAgain)

/-- A page whose resources are taken from it is a dictionary. -/
theorem exists_dictionary_of_takeFromPage {resources : Resources}
    (done : Resources.takeFromPage page document = .ok resources after) :
    ∃ node, document.fetchDictionary page = .ok node := by
  simp only [Resources.takeFromPage, bind_eq_ok, get_eq_ok, lift_eq_ok] at done
  obtain ⟨_, _, ⟨rfl, rfl⟩, owner, _, ⟨found, -⟩, -⟩ := done
  obtain ⟨node, fetched, -⟩ := Outcome.bind_eq_ok.1 found
  exact ⟨node, fetched⟩

section Pages

variable {start layout : Layout} {written : List (ObjectId × Stream)} {job left : Job}

/-- A page that is converted becomes what its content becomes in the document as it was at first. -/
theorem becomes_of_convertPage
    (became : start.Became layout written job.converter.formerSpaces job.document)
    (isNode : start.role page = .node)
    (isNew : ∀ place node, start.original.fetchStoredDictionary page = .ok (place, node) →
      place ∉ written.map Prod.fst)
    (plain : start.HasPlainImages page) (done : convertPage page job = .ok ⟨⟩ left) :
    left.converter.options = job.converter.options ∧
      ∃ other place node bytes, start.original.fetchStoredDictionary page = .ok (place, node) ∧
        PageBecomes job.converter.options start.original page bytes ∧
          start.Became other
            ((place, .ofPage bytes job.converter.options.compressStreams) :: written)
            left.converter.formerSpaces left.document := by
  simp only [convertPage, bind_eq_ok, get_eq_ok, lift_eq_ok, Job.onDocument, within_eq_ok] at done
  obtain ⟨_, _, ⟨rfl, rfl⟩, content, _, ⟨isContent, rfl⟩, resources, _, ⟨taken, took, rfl⟩,
    ⟨gray, _⟩, converted, painted, _, _, ⟨rfl, rfl⟩, after, wrote, rfl⟩ := done
  -- The content and the resources of the page are those that it had at first.
  obtain ⟨node, fetched⟩ := exists_dictionary_of_takeFromPage took
  have wasContent := became.pageContent isNode fetched
    (fun place now stored => by
      obtain ⟨first, was, -⟩ := became.fetchStoredDictionary isNode stored
      exact isNew place first was) isContent
  obtain ⟨middle, before, taking, wasResources, resourcesFrom, has⟩ :=
    became.takeFromPage isNode took
  -- The content becomes gray under these resources.
  obtain ⟨scene, atScene, -, rfl⟩ := withResources_eq_ok.1 painted
  let entered : Scene := ⟨⟨taken, job.converter⟩, resources⟩
  have held : middle.keeping.scene entered := ⟨taking.stands.keeps, has⟩
  have kept := ((keepsLayout_contentToGray taking.stands.named content entered).of_ok held
    atScene).2.1
  have level := ((keeps_contentToGray content entered).of_ok ⟨⟨rfl, rfl⟩, trivial⟩ atScene).2.1
  have becomes := grayContent_of_converts taking.stands.named taking.stands.keeps has
    (fun other keeps tells => taking.tellsAs resourcesFrom keeps tells)
    (fun operations read => plain content before operations wasContent wasResources read)
    (.inl ⟨rfl, atScene⟩)
  have painting : start.Became middle written scene.converter.formerSpaces scene.document :=
    ⟨taking.grows, ⟨kept, taking.stands.fits, taking.stands.named⟩, taking.fits⟩
  obtain ⟨other, place, first, was, wrote⟩ := painting.setPageContent isNode isNew wrote
  rw [level.2] at wrote
  exact ⟨level.2, other, place, first, gray, was, ⟨content, before, wasContent, wasResources, becomes⟩,
    wrote⟩

/-- Pages that are converted one after the other become each what its content becomes in the document
as it was at first. -/
theorem becomes_of_forM {pages : List ObjectId}
    (became : start.Became layout written job.converter.formerSpaces job.document)
    (areNodes : ∀ page ∈ pages, start.role page = .node)
    (apart : pages.Pairwise start.original.Apart)
    (areNew : ∀ page ∈ pages, ∀ place node,
      start.original.fetchStoredDictionary page = .ok (place, node) →
        place ∉ written.map Prod.fst)
    (plain : ∀ page ∈ pages, start.HasPlainImages page)
    (done : pages.forM convertPage job = .ok ⟨⟩ left) :
    ∃ other all, start.Became other all left.converter.formerSpaces left.document ∧
      (∀ entry ∈ written, entry ∈ all) ∧ ∀ page ∈ pages, ∃ place node bytes,
        start.original.fetchStoredDictionary page = .ok (place, node) ∧
          PageBecomes job.converter.options start.original page bytes ∧
            (place, .ofPage bytes job.converter.options.compressStreams) ∈ all := by
  induction pages generalizing layout written job with
  | nil =>
      obtain ⟨_, rfl⟩ := pure_eq_ok.1 (show (pure ⟨⟩ : Change Job PUnit) job = _ from done)
      exact ⟨layout, written, became, fun _ among => among, by simp⟩
  | cons page rest inductionHypothesis =>
      obtain ⟨middle, atPage, atRest⟩ := forM_cons_eq_ok.1 done
      obtain ⟨fromPage, apartRest⟩ := List.pairwise_cons.mp apart
      obtain ⟨sameOptions, next, place, node, bytes, stored, becomes, becameNext⟩ :=
        becomes_of_convertPage became (areNodes page List.mem_cons_self)
          (areNew page List.mem_cons_self) (plain page List.mem_cons_self) atPage
      have areNewLater : ∀ later ∈ rest, ∀ target entries,
          start.original.fetchStoredDictionary later = .ok (target, entries) →
            target ∉ ((place, Stream.ofPage bytes job.converter.options.compressStreams) ::
              written).map Prod.fst := by
        intro later isLater target entries storedLater among
        rcases List.mem_cons.mp among with rfl | among
        · exact fromPage later isLater _ _ _ stored storedLater
        · exact areNew later (List.mem_cons_of_mem _ isLater) _ _ storedLater among
      obtain ⟨other, all, becameAll, keeps, becomeLater⟩ := inductionHypothesis becameNext
        (fun later isLater => areNodes later (List.mem_cons_of_mem _ isLater)) apartRest areNewLater
        (fun later isLater => plain later (List.mem_cons_of_mem _ isLater)) atRest
      refine ⟨other, all, becameAll, fun entry among => keeps entry (List.mem_cons_of_mem _ among), ?_⟩
      intro later isLater
      rcases List.mem_cons.mp isLater with rfl | isLater
      · exact ⟨place, node, bytes, stored, becomes, keeps _ List.mem_cons_self⟩
      · rw [← sameOptions]
        exact becomeLater later isLater

end Pages
/-- What a document becomes whose pages are converted by a converter of their own. -/
theorem forM_of_convertFresh {options : Options} {pages : List ObjectId} {statistics : Statistics}
    (done : convertFresh options pages document = .ok statistics after) :
    ∃ left : Job, pages.forM convertPage ⟨document, { options := options }⟩ = .ok ⟨⟩ left ∧
      left.document = after := by
  unfold convertFresh at done
  split at done
  · rename_i result left converted
    obtain ⟨rfl, rfl⟩ := EStateM.Result.ok.inj done
    simp only [convertPages, bind_eq_ok, get_eq_ok, pure_eq_ok] at converted
    obtain ⟨⟨⟩, _, each, _, _, ⟨rfl, rfl⟩, _, rfl⟩ := converted
    exact ⟨_, each, rfl⟩
  · simp at done

/-- Pages that one converter converts, in any order, get the content that each of them becomes in the
document as it was at first. -/
theorem pageContent_of_convertFresh {role : ObjectId → Role} {pages : List ObjectId}
    {statistics : Statistics} (fits : document.Fits role)
    (known : ∀ target, role target ≠ .loose → target.number ≤ document.highest)
    (named : Layout.OnlyNamed ⟨role, document⟩) (areNodes : ∀ page ∈ pages, role page = .node)
    (apart : pages.Pairwise document.Apart)
    (plain : ∀ page ∈ pages, Layout.HasPlainImages ⟨role, document⟩ page)
    (done : convertFresh options pages document = .ok statistics after) (isPage : page ∈ pages) :
    ∃ bytes, PageBecomes options document page bytes ∧ after.pageContent page = .ok bytes := by
  obtain ⟨left, each, rfl⟩ := forM_of_convertFresh done
  obtain ⟨other, all, became, -, become⟩ := becomes_of_forM
    (Layout.Became.refl fits known named) areNodes apart (by simp) plain each
  obtain ⟨place, node, bytes, stored, becomes, isWritten⟩ := become page isPage
  exact ⟨bytes, becomes, became.pageContent_written (areNodes page isPage) stored isWritten⟩

/-- A document with two pages that share their resources and select the same pattern space, which is
over red, green and blue. -/
def twoColoredPages : Document :=
  let space := Object.array [.named "Pattern", .named "DeviceRGB"]
  let spaces := Object.dictionary (Table.ofList [(Bytes.ascii "Tiles", space)])
  let resources := Object.dictionary (Dictionary.ofEntries [("ColorSpace", spaces)])
  let kids := Object.array [.reference ⟨3, 0⟩, .reference ⟨4, 0⟩]
  twoPages.store ⟨2, 0⟩ (.dictionary (Dictionary.ofEntries
    [("Type", .named "Pages"), ("Kids", kids), ("Resources", resources)]))

/-- The roles of the objects of that document. -/
def twoColoredPages.role (target : ObjectId) : Role :=
  match target.number with
  | 2 | 3 | 4 => .node
  | 5 => .shared
  | _ => .loose

/-- The objects of that document fit their roles. -/
theorem fits_twoColoredPages : twoColoredPages.Fits twoColoredPages.role := by
  have computed : ∀ entry ∈ twoColoredPages.objects.entries,
      entry.2.fits twoColoredPages.role (twoColoredPages.role entry.1) = true := by
    decide +kernel
  intro target object found
  exact computed _ (Table.mem_of_findIn found)

/-- The pages of that document are stored in different places. -/
theorem apart_twoColoredPages : [⟨4, 0⟩, ⟨3, 0⟩].Pairwise twoColoredPages.Apart := by
  refine List.pairwise_pair.mpr ?_
  intro place node another first second
  have atFirst : (twoColoredPages.fetchStoredDictionary ⟨4, 0⟩).toOption.map Prod.fst =
      some ⟨4, 0⟩ := by decide +kernel
  have atSecond : (twoColoredPages.fetchStoredDictionary ⟨3, 0⟩).toOption.map Prod.fst =
      some ⟨3, 0⟩ := by decide +kernel
  rw [first] at atFirst
  rw [second] at atSecond
  cases atFirst
  cases atSecond

/-- The content of the pages of that document has no inline images. -/
theorem hasPlainImages_twoColoredPages (page : ObjectId) (isPage : page ∈ [⟨4, 0⟩, ⟨3, 0⟩]) :
    Layout.HasPlainImages ⟨twoColoredPages.role, twoColoredPages⟩ page := by
  have contents : ∀ page ∈ [⟨4, 0⟩, ⟨3, 0⟩],
      (twoColoredPages.pageContent page).toOption = some selectingContent := by decide +kernel
  intro content resources operations isContent _ read operation among image isImage
  have same := contents page isPage
  rw [isContent] at same
  obtain rfl : content = selectingContent := Option.some.inj same
  obtain ⟨others, readAgain, only⟩ := onlySelects_selectingContent
  cases read.symm.trans readAgain
  have selects := only operation among
  rw [Operation.onlySelects, isImage] at selects
  cases selects

end Conversion
end Monochrome
