import Monochrome.Proofs.Conversion.Mirrored

/-!
# Conversion page by page

A document is converted by one converter, which remembers from page to page; a page that is
converted alone begins with a converter that remembers nothing.  Converting the pages of a document
one by one, in order, leaves the document that converting it whole leaves, as long as the pattern
spaces that a page selects still tell what is remembered from the pages before it.
-/

namespace Monochrome
namespace Conversion
open Change

variable {job left : Job} {page : ObjectId}

/-- Converting a page is mirrored by a converter that forgets, as long as what it selects still
tells what is remembered of it. -/
theorem isMirrored_convertPage {start : Converter}
    (tells : ∀ selection, PageSelects page job selection →
      selection.StillTells start.formerSpaces) :
    IsMirrored (Job.Forgets start) (convertPage page) job := by
  refine Job.isMirrored_get_bind (fun _ _ => rfl) ?_
  refine isMirrored_lift_bind fun content isContent => ?_
  refine (Job.isMirrored_onDocument _).bind fun resources taken isTaken => ?_
  refine (Job.isMirrored_withResources (isMirrored_contentToGray fun selection selected =>
    tells selection ⟨content, resources, taken, isContent, isTaken, selected⟩)).bind ?_
  intro ⟨bytes, _⟩ middle _
  exact Job.isMirrored_get_bind (fun _ same => by simp only [same]) (Job.isMirrored_onDocument _)

/-- A page that is converted after others is converted alone to the same document, if what it
selects still tells what is remembered from them.  The options and the trail of the converter
stay. -/
theorem convertDocumentPage_of_convertPage (outermost : job.converter.trail = [])
    (tells : ∀ selection, PageSelects page job selection →
      selection.StillTells job.converter.formerSpaces)
    (done : convertPage page job = .ok ⟨⟩ left) :
    left.converter.options = job.converter.options ∧ left.converter.trail = [] ∧
      ∃ statistics, convertDocumentPage job.converter.options page job.document =
        .ok statistics left.document := by
  obtain ⟨_, alone, converter, forgets, rfl⟩ := isMirrored_convertPage tells
    ⟨job.document, { options := job.converter.options }⟩ ⟨⟩ left
    ⟨_, Converter.Forgets.of_new job.converter outermost, rfl⟩ done
  refine ⟨forgets.options, forgets.trail.trans outermost, converter.statistics, ?_⟩
  have whole : convertPages [page] ⟨job.document, { options := job.converter.options }⟩ =
      .ok converter.statistics { left with converter := converter } := by
    refine bind_eq_ok.2 ⟨⟨⟩, _, forM_cons_eq_ok.2 ⟨_, alone, rfl⟩, ?_⟩
    rfl
  rw [convertDocumentPage, convertFresh, whole]

/-- Pages that are converted one after the other are converted to the same document each by a
converter of its own, if what they select still tells what is remembered of it. -/
theorem mapM_convertDocumentPage_of_forM {pages : List ObjectId}
    (outermost : job.converter.trail = []) (tell : PagesStillTell pages job)
    (done : pages.forM convertPage job = .ok ⟨⟩ left) :
    ∃ each, pages.mapM (convertDocumentPage job.converter.options) job.document =
      .ok each left.document := by
  induction pages generalizing job with
  | nil =>
      obtain ⟨_, rfl⟩ := pure_eq_ok.1 (show (pure ⟨⟩ : Change Job PUnit) job = _ from done)
      exact ⟨[], rfl⟩
  | cons page rest inductionHypothesis =>
      obtain ⟨middle, atPage, atRest⟩ := forM_cons_eq_ok.1 done
      obtain ⟨sameOptions, outermostLater, statistics, alone⟩ :=
        convertDocumentPage_of_convertPage outermost (tell [] page rest job rfl rfl) atPage
      have tellLater : PagesStillTell rest middle := by
        rintro before later after job rfl atBefore
        exact tell (page :: before) later after job rfl
          (forM_cons_eq_ok.2 ⟨middle, atPage, atBefore⟩)
      obtain ⟨others, atOthers⟩ := inductionHypothesis outermostLater tellLater atRest
      rw [sameOptions] at atOthers
      exact ⟨statistics :: others, mapM_cons_eq_ok.2 ⟨statistics, _, others, alone, atOthers, rfl⟩⟩

/-- A document with two pages that share their resources and select the same pattern space, which is
over gray. -/
def twoPages : Document :=
  let spaces := Object.dictionary (Table.ofList [(Bytes.ascii "Tiles", grayPatternSpace)])
  let resources := Object.dictionary (Table.ofList [(Bytes.ascii "ColorSpace", spaces)])
  let node (entries : List (String × Object)) : Object :=
    .dictionary (Table.ofList (entries.map fun (key, value) => (Bytes.ascii key, value)))
  let kids := Object.array [.reference ⟨3, 0⟩, .reference ⟨4, 0⟩]
  let page := node [("Type", .named "Page"), ("Parent", .reference ⟨2, 0⟩),
    ("Contents", .reference ⟨5, 0⟩)]
  .ofObjects
    [(⟨1, 0⟩, node [("Pages", .reference ⟨2, 0⟩)]),
      (⟨2, 0⟩, node [("Type", .named "Pages"), ("Kids", kids), ("Resources", resources)]),
      (⟨3, 0⟩, page), (⟨4, 0⟩, page),
      (⟨5, 0⟩, (Stream.ofData Table.empty selectingContent).toObject)]
    (Table.ofList [(Bytes.ascii "Root", .reference ⟨1, 0⟩)])

/-- Options with which content is stored as it is. -/
def plainOptions : Options :=
  { compressStreams := false }

/-- Whether a change succeeds, and what is then true of the state. -/
def succeedsAnd {σ α : Type} (holds : σ → Bool) (result : EStateM.Result Fault σ α) : Bool :=
  match result with
  | .ok _ state => holds state
  | .error _ _ => false

/-- The content that selects a pattern space only selects that space. -/
theorem onlySelects_selectingContent :
    ∃ operations, Content.read selectingContent = .ok operations ∧
      ∀ operation ∈ operations, operation.onlySelects "Tiles" = true := by
  have computed : (Content.read selectingContent).toOption.any
      (fun operations => operations.all (Operation.onlySelects "Tiles")) = true := by
    decide +kernel
  cases read : Content.read selectingContent with
  | ok operations =>
      simp only [read, Except.toOption, Option.any_some, List.all_eq_true] at computed
      exact ⟨operations, rfl, computed⟩
  | error fault => simp [read, Except.toOption] at computed

/-- Whether what a page selects still tells what is remembered of it, if its content only selects
one pattern space. -/
def Job.pageTells (page : ObjectId) (job : Job) : Bool :=
  (job.document.pageContent page).toOption = some selectingContent &&
    match Job.onDocument (Resources.takeFromPage page) job with
    | .ok resources taken =>
      Selection.StillTells ⟨(Scene.mk taken resources).scope, "Tiles"⟩ job.converter.formerSpaces
    | .error _ _ => true

/-- What a page selects still tells what is remembered, if its content only selects a pattern space
for which that is so. -/
theorem stillTells_of_pageTells {selection : Selection} (tells : Job.pageTells page job = true)
    (selected : PageSelects page job selection) :
    selection.StillTells job.converter.formerSpaces := by
  obtain ⟨content, resources, taken, isContent, isTaken, selected⟩ := selected
  simp only [Job.pageTells, isContent, isTaken, Except.toOption, Bool.and_eq_true,
    decide_eq_true_eq, Option.some.injEq] at tells
  obtain ⟨rfl, tells⟩ := tells
  obtain ⟨operations, read, only⟩ := onlySelects_selectingContent
  obtain rfl := eq_of_contentSelects read only selected
  exact tells

/-- What the pages of the document with two pages select still tells what is remembered of it. -/
theorem pagesStillTell_twoPages :
    PagesStillTell twoPages.pages ⟨twoPages, { options := plainOptions }⟩ := by
  have pages : twoPages.pages = [⟨3, 0⟩, ⟨4, 0⟩] := by decide +kernel
  rw [pages]
  rintro (_ | ⟨first, _ | ⟨second, _ | ⟨third, rest⟩⟩⟩) page after middle split done selection
    selected
  · obtain ⟨_, rfl⟩ := pure_eq_ok.1 (show (pure ⟨⟩ : Change Job PUnit) _ = _ from done)
    exact Selection.stillTells_of_forall_none fun location => rfl
  · obtain ⟨rfl, rfl, -⟩ :
        (⟨3, 0⟩ : ObjectId) = first ∧ (⟨4, 0⟩ : ObjectId) = page ∧ [] = after := by
      simpa using split
    obtain ⟨_, converted, isMiddle⟩ := forM_cons_eq_ok.1 done
    obtain ⟨_, rfl⟩ := pure_eq_ok.1 (show (pure ⟨⟩ : Change Job PUnit) _ = _ from isMiddle)
    have tells : succeedsAnd (Job.pageTells ⟨4, 0⟩)
        (convertPage ⟨3, 0⟩ ⟨twoPages, { options := plainOptions }⟩) = true := by decide +kernel
    rw [converted] at tells
    exact stillTells_of_pageTells tells selected
  · simp at split
  · simp at split

end Conversion
end Monochrome
