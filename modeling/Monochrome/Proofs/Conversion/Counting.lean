import Monochrome.Proofs.Conversion.Walking

/-!
# Counting

What a run counts is the sum over the streams that it goes through of what is to be counted there,
but for one thing: an inline image whose palette is replaced is not counted among the images.
-/

namespace Monochrome
namespace Conversion
open Change

variable {total : Arrival → Statistics}

/-! ## Streams -/

/-- Elements that are nested are summed up where they are nested. -/
theorem sum_map_flatMap {α β : Type} (list : List α) (nested : α → List β)
    (weight : β → Statistics) :
    ((list.flatMap nested).map weight).sum =
      (list.map fun element => ((nested element).map weight).sum).sum := by
  rw [List.map_flatMap, List.flatMap, List.sum_flatten, List.map_map]
  rfl

/-- What is added for patterns is their number, and what is added for their cells. -/
theorem sum_patternCounts (mentions : List Mention) :
    (mentions.map (Mention.patternCounts total)).sum =
      { patternsConverted := mentions.length } +
        ((mentions.flatMap Mention.patternArrivals).map total).sum := by
  induction mentions with
  | nil => rfl
  | cons mention rest inductionHypothesis =>
      rw [List.map_cons, List.sum_cons, inductionHypothesis, List.flatMap_cons, List.map_append,
        List.sum_append, Mention.patternCounts, add_add_add_comm, List.length_cons, add_comm _ 1]
      rfl

/-- What is added for external objects is their number, that of images that are replaced, that of
forms, and what is added for the forms. -/
theorem sum_xobjectCounts (mentions : List Mention) :
    (mentions.map (Mention.xobjectCounts total)).sum =
      { xobjectsProcessed := mentions.length
        imagesConverted := mentions.countP Mention.isReplacedImage
        formsConverted := mentions.countP Mention.isForm } +
        ((mentions.flatMap Mention.formArrivals).map total).sum := by
  induction mentions with
  | nil => rfl
  | cons mention rest inductionHypothesis =>
      rw [List.map_cons, List.sum_cons, inductionHypothesis, List.flatMap_cons, List.map_append,
        List.sum_append, Mention.xobjectCounts, add_add_add_comm, List.length_cons, add_comm _ 1,
        List.countP_cons, List.countP_cons, add_comm (List.countP _ _), add_comm (List.countP _ _)]
      cases mention.isReplacedImage <;> cases mention.isForm <;> rfl

namespace Passage

/-- What is counted of a stream: all that is to be counted, but for inline images whose palette is
replaced. -/
def counted (passage : Passage) : Statistics :=
  { passage.counts with
    imagesConverted := passage.inlineImages.countP ImageTask.replacesSamples +
      (Mention.firsts passage.xobjects).countP Mention.isReplacedImage }

/-- What is counted of a stream falls short by the inline images whose palette is replaced. -/
theorem counted_add_inlinePalettes (passage : Passage) :
    passage.counted + { imagesConverted := passage.inlinePalettes } = passage.counts := by
  have replaced : passage.inlineImages.countP ImageTask.replaces =
      passage.inlineImages.countP ImageTask.replacesSamples + passage.inlinePalettes := by
    unfold inlinePalettes
    induction passage.inlineImages with
    | nil => rfl
    | cons task rest inductionHypothesis =>
        simp only [List.countP_cons, inductionHypothesis]
        cases task <;> simp [ImageTask.replaces, ImageTask.replacesSpace,
          ImageTask.replacesSamples] <;> omega
  refine Statistics.ext rfl rfl rfl rfl rfl ?_ rfl
  show _ + List.countP _ _ + _ = _ + List.countP _ _
  rw [replaced, Nat.add_right_comm]

end Passage

/-- What is added for a whole walk, with the stream itself, is what is counted of the stream and what
is added for the streams that it paints with. -/
theorem Passes.added_eq {start finish : Walk} {passage : Passage}
    (passes : Passes total start passage finish) (noPatterns : start.patterns = {})
    (noShadings : start.shadings = {}) (noXObjects : start.xobjects = {}) :
    passage.added total + { streamsConverted := 1 } =
      passage.counted + (passage.arrivals.map total).sum := by
  have patterns := noPatterns ▸ passes.patterns
  have shadings := noShadings ▸ passes.shadings
  have xobjects := noXObjects ▸ passes.xobjects
  rw [Passage.added, Passage.addedAlone, patterns.filter_isNew_of_empty,
    shadings.filter_isNew_of_empty, xobjects.filter_isNew_of_empty, sum_patternCounts,
    sum_xobjectCounts, Passage.arrivals, List.map_append, List.sum_append, Mention.length_firsts,
    Mention.length_firsts, Mention.length_firsts]
  have atOnce : ({ operatorsConverted := passage.colors
                   shadingsConverted := (passage.shadings.map Mention.name).dedup.length
                   imagesConverted :=
                     passage.inlineImages.countP ImageTask.replacesSamples } : Statistics) +
      { patternsConverted := (passage.patterns.map Mention.name).dedup.length } +
      { xobjectsProcessed := (passage.xobjects.map Mention.name).dedup.length
        imagesConverted := (Mention.firsts passage.xobjects).countP Mention.isReplacedImage
        formsConverted := (Mention.firsts passage.xobjects).countP Mention.isForm } +
      { streamsConverted := 1 } = passage.counted :=
    Statistics.ext rfl rfl (Nat.zero_add _) rfl (Nat.zero_add _) rfl (Nat.zero_add _)
  rw [← atOnce]
  ac_rfl

/-- What is counted of a stream and of all that it paints with, if streams are nested in it to less
than the given depth. -/
def countedWithin (depth : Nat) (arrival : Arrival) : Statistics :=
  ((passages depth arrival).map Passage.counted).sum

/-- A stream that is converted is counted with all that it paints with. -/
theorem adds_convertStream (depth : Nat) : (convertStream depth).Adds (countedWithin depth) := by
  induction depth with
  | zero =>
      intro location content scene value after done
      obtain ⟨_, _, _, failed⟩ := bind_eq_ok.1 done
      exact (throw_eq_ok.1 failed).elim
  | succ depth inductionHypothesis =>
      rintro location content scene ⟨bytes, names⟩ after done
      obtain ⟨start, operations, converted, finish, entered, read, mapped, _, _, rfl⟩ :=
        convertStream_eq_ok_leaving done
      have passes := passes_mapM_convertOperation inductionHypothesis mapped
      have isPassage : Passage.ofArrival (convertStream depth) ⟨location, content, scene⟩ =
          .ok (Passage.ofOperations (convertStream depth) operations start) := by
        simp only [Passage.ofArrival, entered, read]
        rfl
      obtain ⟨trail, _, started⟩ := Outcome.bind_eq_ok.1 entered
      obtain rfl := Outcome.pure_eq_ok.1 started
      have whole := passes.added_eq rfl rfl rfl
      calc
        (leaving finish).converter.statistics
            = finish.converter.statistics + { streamsConverted := 1 } := rfl
        _ = scene.converter.statistics + (_ + (_ : List Statistics).sum) := by
            rw [passes.statistics, add_assoc, whole]
            rfl
        _ = scene.converter.statistics + countedWithin (depth + 1) ⟨location, content, scene⟩ := by
            rw [countedWithin, passages, isPassage]
            dsimp only
            rw [List.map_cons, List.sum_cons, sum_map_flatMap]
            rfl

/-! ## Runs -/

/-- What is counted of an outermost stream and of all that it paints with. -/
def countedFrom (arrival : Arrival) : Statistics :=
  countedWithin (Trail.levels arrival.scene.converter.options.maxNestingDepth) arrival

section Runs

variable {content bytes : Bytes} {scene settled : Scene} {job left : Job} {page : ObjectId}

/-- The outermost streams are counted as they are converted. -/
theorem adds_streamConversion (converter : Converter) :
    (streamConversion converter).Adds
      (countedWithin (Trail.levels converter.options.maxNestingDepth)) :=
  adds_convertStream _

/-- The conversion of content counts the streams that it goes through. -/
theorem statistics_contentToGray (done : contentToGray content scene = .ok bytes settled) :
    settled.converter.statistics =
      scene.converter.statistics + countedFrom ⟨none, content, scene⟩ := by
  obtain ⟨_, _, isScene, converted⟩ := bind_eq_ok.1 done
  obtain ⟨rfl, rfl⟩ := get_eq_ok.1 isScene
  have counted := statistics_convertOwn (adds_streamConversion scene.converter) converted
  exact counted

/-- The cell of a pattern is arrived at by the job that converts the pattern. -/
theorem toJob_of_mem_patternArrivals {pattern : Pattern} {arrival : Arrival}
    (arrives : arrival ∈ patternArrivals pattern job) : arrival.scene.toJob = job := by
  cases pattern with
  | shading entries shading location => cases arrives
  | tiling cell paintType =>
      simp only [patternArrivals] at arrives
      split_ifs at arrives
      · cases isArrival : cell.arrival job default with
        | ok found =>
            obtain ⟨_, _, read⟩ := Outcome.bind_eq_ok.1 isArrival
            obtain ⟨_, _, isFound⟩ := Outcome.bind_eq_ok.1 read
            obtain rfl : arrival = found := by
              simpa [isArrival, Except.toOption] using arrives
            rw [← Outcome.pure_eq_ok.1 isFound]
        | error fault => simp [isArrival, Except.toOption] at arrives
      · cases arrives

/-- The conversion of a pattern counts the streams that it goes through. -/
theorem statistics_patternToGray {pattern gray : Pattern}
    (done : patternToGray pattern job = .ok gray left) :
    left.converter.statistics =
      job.converter.statistics + ((patternArrivals pattern job).map countedFrom).sum := by
  obtain ⟨_, _, isJob, converted⟩ := bind_eq_ok.1 done
  obtain ⟨rfl, rfl⟩ := get_eq_ok.1 isJob
  rw [statistics_convertPattern (adds_streamConversion job.converter) converted]
  refine congrArg (fun list : List Statistics => _ + list.sum) (List.map_congr_left ?_)
  intro arrival arrives
  rw [countedFrom, toJob_of_mem_patternArrivals arrives]

/-- The conversion of a page counts the streams that it goes through. -/
theorem statistics_convertPage (done : convertPage page job = .ok ⟨⟩ left) :
    left.converter.statistics =
      job.converter.statistics + ((pageArrivals page job).map countedFrom).sum := by
  simp only [convertPage, bind_eq_ok, get_eq_ok, lift_eq_ok] at done
  obtain ⟨_, _, ⟨rfl, rfl⟩, content, _, ⟨isContent, rfl⟩, resources, taken, took, ⟨gray, _⟩, _,
    converted, _, _, ⟨rfl, rfl⟩, wrote⟩ := done
  obtain ⟨scene, inside, _, rfl⟩ := withResources_eq_ok.1 converted
  obtain ⟨_, _, rfl⟩ := within_eq_ok.1 wrote
  have arrives : pageArrivals page job = [⟨none, content, ⟨taken, resources⟩⟩] := by
    simp only [pageArrivals, isContent, took]
  rw [arrives, List.map_singleton, List.sum_singleton]
  obtain ⟨_, _, rfl⟩ := within_eq_ok.1 took
  exact statistics_contentToGray inside

/-- The conversion of pages counts the streams that it goes through. -/
theorem statistics_convertPages {pages : List ObjectId} {counts : Statistics}
    (done : convertPages pages job = .ok counts left) :
    counts = left.converter.statistics ∧ left.converter.statistics =
      job.converter.statistics + ((pagesArrivals pages job).map countedFrom).sum := by
  obtain ⟨_, middle, converted, read⟩ := bind_eq_ok.1 done
  obtain ⟨_, _, isJob, isCounts⟩ := bind_eq_ok.1 read
  obtain ⟨rfl, rfl⟩ := get_eq_ok.1 isJob
  obtain ⟨rfl, rfl⟩ := pure_eq_ok.1 isCounts
  refine ⟨rfl, ?_⟩
  clear done read isJob isCounts
  induction pages generalizing job with
  | nil =>
      obtain ⟨_, rfl⟩ := pure_eq_ok.1 converted
      exact (add_zero _).symm
  | cons page rest inductionHypothesis =>
      obtain ⟨next, atFirst, atRest⟩ := forM_cons_eq_ok.1 converted
      rw [inductionHypothesis atRest, statistics_convertPage atFirst, add_assoc, pagesArrivals,
        pagesArrivals, course, atFirst, List.flatMap_cons, List.map_append, List.sum_append]

/-- A run counts the streams that it goes through. -/
theorem Run.statistics {before after : Job} {passed : List Passage} (run : Run before after passed) :
    after.converter.statistics =
      before.converter.statistics + (passed.map Passage.counted).sum := by
  cases run with
  | content done => exact statistics_contentToGray done
  | pattern done =>
      rw [sum_map_flatMap]
      exact statistics_patternToGray done
  | pages done =>
      rw [sum_map_flatMap]
      exact (statistics_convertPages done).2

/-- A document that is converted counts the streams that it goes through. -/
theorem statistics_convertDocument {options : Options} {document after : Document}
    {counts : Statistics} (done : convertDocument options document = .ok counts after) :
    counts = ((pagesArrivals document.pages ⟨document, { options := options }⟩).map
      countedFrom).sum := by
  obtain ⟨_, _, isDocument, converted⟩ := bind_eq_ok.1 done
  obtain ⟨rfl, rfl⟩ := get_eq_ok.1 isDocument
  unfold convertFresh at converted
  split at converted
  · rename_i statistics job inside
    obtain ⟨rfl, counted⟩ := statistics_convertPages inside
    obtain ⟨rfl, _⟩ := EStateM.Result.ok.inj converted
    exact counted.trans (zero_add _)
  · cases converted

/-- What is counted of streams falls short by the inline images whose palette is replaced. -/
theorem sum_counted_add_inlinePalettes (passed : List Passage) :
    (passed.map Passage.counted).sum +
        { imagesConverted := (passed.map Passage.inlinePalettes).sum } =
      (passed.map Passage.counts).sum := by
  induction passed with
  | nil => rfl
  | cons passage rest inductionHypothesis =>
      rw [List.map_cons, List.map_cons, List.map_cons, List.sum_cons, List.sum_cons, List.sum_cons,
        ← inductionHypothesis, ← passage.counted_add_inlinePalettes, add_add_add_comm]
      rfl

end Runs

/-! ## An inline image with a palette -/

/-- Content with an inline image that has a palette of one red. -/
def paletteContent : Bytes :=
  Bytes.ascii "BI /W 1 /H 1 /BPC 8 /CS [/I /RGB 0 <FF0000>] ID \x00 EI"

/-- The content without resources, and a new converter. -/
def paletteArrival : Arrival :=
  ⟨none, paletteContent, ⟨⟨⟨Table.empty, Table.empty, 0⟩, {}⟩, .direct Table.empty⟩⟩

/-- The content with the palette is converted. -/
theorem contentToGray_paletteContent :
    ∃ bytes after, contentToGray paletteContent paletteArrival.scene = .ok bytes after := by
  have computed :
      (converted? (contentToGray paletteContent paletteArrival.scene)).isSome = true := by
    decide +kernel
  cases done : contentToGray paletteContent paletteArrival.scene with
  | ok bytes after => exact ⟨bytes, after, rfl⟩
  | error fault after => simp [done, converted?] at computed

end Conversion
end Monochrome
