import Monochrome.Proofs.Conversion.Naming
import Monochrome.Proofs.Conversion.PageOrder
import Monochrome.Proofs.Conversion.PaintedImages
import Monochrome.Proofs.Conversion.Passages

/-!
# What conversions add to the counts

A walk notes the names that it comes to, and converts only what it did not note before.  Below it is
told which of the names those are, and what the conversion of a pattern, a form or an image adds to
the counts, if it is known what each stream adds.
-/

namespace Monochrome

namespace Mention

/-! ## Mentions that are noted -/

variable {noted : Walk → Names} {first middle last : Names}
  {mentions others : List Mention}

/-- Whether the walk of a mention has not noted its name. -/
def IsNew (noted : Walk → Names) (mention : Mention) : Bool :=
  !(noted mention.walk).contains mention.name

/-- Whether walks note the names of mentions one after the other. -/
inductive Noted (noted : Walk → Names) : Names → List Mention → Names → Prop
  /-- No name is mentioned. -/
  | nil (names : Names) : Noted noted names [] names
  /-- A name is mentioned, and noted before the others. -/
  | cons (mention : Mention) (next last : Names) (rest : List Mention)
      (isNoted : ∀ other, other ∈ next.toList ↔
        other = mention.name ∨ other ∈ (noted mention.walk).toList)
      (others : Noted noted next rest last) :
      Noted noted (noted mention.walk) (mention :: rest) last

/-- A name that is mentioned is noted. -/
theorem Noted.single (mention : Mention) {next : Names}
    (isNoted : ∀ other, other ∈ next.toList ↔
      other = mention.name ∨ other ∈ (noted mention.walk).toList) :
    Noted noted (noted mention.walk) [mention] next :=
  .cons mention next next [] isNoted (.nil next)

/-- A name that was noted is mentioned. -/
theorem Noted.of_known {walk : Walk} {name : String}
    (known : (noted walk).contains name = true) :
    Noted noted (noted walk) [⟨name, walk⟩] (noted walk) :=
  .single ⟨name, walk⟩ fun other => by
    refine ⟨Or.inr, ?_⟩
    rintro (rfl | isKnown)
    · simpa [Names.contains] using known
    · exact isKnown

/-- A name is mentioned and noted. -/
theorem Noted.of_insert {walk : Walk} {name : String} {next : Names}
    (isNext : next = (noted walk).insert name) :
    Noted noted (noted walk) [⟨name, walk⟩] next :=
  .single ⟨name, walk⟩ fun other => by rw [isNext, Names.mem_insert]

/-- Names are noted that are mentioned after others. -/
theorem Noted.append (early : Noted noted first mentions middle)
    (late : Noted noted middle others last) : Noted noted first (mentions ++ others) last := by
  induction early with
  | nil => exact late
  | cons mention next middle rest isNoted _ inductionHypothesis =>
      exact .cons mention next last (rest ++ others) isNoted (inductionHypothesis late)

/-- The mentions whose walk has not noted their name are the first ones, except for names that were
noted before all of them. -/
theorem Noted.filter_isNew (isNoted : Noted noted first mentions last) :
    mentions.filter (IsNew noted) = (firsts mentions).filter (!first.contains ·.name) := by
  induction isNoted with
  | nil => rfl
  | cons mention next last rest isNext _ inductionHypothesis =>
      have later (other : Mention) : (!next.contains other.name) =
          (!(noted mention.walk).contains other.name && decide (other.name ≠ mention.name)) := by
        rw [Bool.eq_iff_iff]
        simp only [Names.contains, List.contains_eq_mem, isNext, Bool.and_eq_true, Bool.not_eq_true',
          decide_eq_false_iff_not, decide_eq_true_eq]
        tauto
      have others : rest.filter (IsNew noted) =
          ((firsts rest).filter (·.name ≠ mention.name)).filter
            (!(noted mention.walk).contains ·.name) := by
        rw [inductionHypothesis, List.filter_filter]
        exact List.filter_congr fun other _ => later other
      rw [firsts, List.filter_cons, List.filter_cons, others]
      rfl

/-- The mentions whose walk has not noted their name are the first ones, if nothing was noted before
them. -/
theorem Noted.filter_isNew_of_empty (isNoted : Noted noted {} mentions last) :
    mentions.filter (IsNew noted) = firsts mentions := by
  rw [isNoted.filter_isNew]
  exact List.filter_eq_self.2 fun mention _ => rfl

/-- No name is mentioned where nothing is noted. -/
theorem Noted.of_eq (same : last = first) : Noted noted first [] last := by
  rw [same]
  exact .nil first

end Mention

/-! ## What a part of a walk adds -/

namespace Walk
open Change Conversion

/-- Whether a part of a walk adds counts and notes no name. -/
structure Adds (before : Walk) (counts : Statistics) (after : Walk) : Prop where
  statistics : after.converter.statistics = before.converter.statistics + counts
  patterns : after.patterns = before.patterns
  shadings : after.shadings = before.shadings
  xobjects : after.xobjects = before.xobjects

variable {α : Type} {walk middle next : Walk} {counts others : Statistics} {value : α}

/-- Where nothing is done, nothing is added. -/
theorem Adds.refl (walk : Walk) : walk.Adds 0 walk :=
  ⟨(add_zero _).symm, rfl, rfl, rfl⟩

/-- What two parts of a walk add is added together. -/
theorem Adds.trans (early : walk.Adds counts middle) (late : middle.Adds others next) :
    walk.Adds (counts + others) next where
  statistics := by rw [late.statistics, early.statistics, add_assoc]
  patterns := late.patterns.trans early.patterns
  shadings := late.shadings.trans early.shadings
  xobjects := late.xobjects.trans early.xobjects

/-- A change of the scene adds what it counts. -/
theorem adds_onScene {step : Change Scene α} (done : onScene step walk = .ok value next)
    (adds : ∀ scene, step walk.toScene = .ok value scene →
      scene.converter.statistics = walk.converter.statistics + counts) :
    walk.Adds counts next := by
  obtain ⟨scene, atScene, rfl⟩ := within_eq_ok.1 done
  exact ⟨adds scene atScene, rfl, rfl, rfl⟩

/-- A change of the job adds what it counts. -/
theorem adds_onJob {step : Change Job α} (done : onJob step walk = .ok value next)
    (adds : ∀ job, step walk.toJob = .ok value job →
      job.converter.statistics = walk.converter.statistics + counts) :
    walk.Adds counts next := by
  obtain ⟨job, atJob, rfl⟩ := onJob_eq_ok.1 done
  exact ⟨adds job atJob, rfl, rfl, rfl⟩

/-- Counting adds what it counts. -/
theorem adds_count {change : Statistics → Statistics} {done : Unit} (counts : Statistics)
    (isChange : ∀ before, change before = before + counts)
    (counted : onJob (Job.count change) walk = .ok done next) : walk.Adds counts next :=
  adds_onJob counted fun job atJob => by
    rw [← modify_eq_ok.1 atJob]
    exact isChange _

/-- Replacing a resource adds nothing. -/
theorem adds_setResource {kind : ResourceKind} {name : String} {object : Object} {done : Unit}
    (replaced : setResource kind name object walk = .ok done next) : walk.Adds 0 next :=
  adds_onScene replaced fun scene atScene => by
    rw [add_zero]
    exact congrArg Converter.statistics ((Scene.converter_onScope _).of_ok atScene).symm

end Walk

/-! ## What is added for names -/

namespace Mention

variable (total : Arrival → Statistics)

/-- What is added for a pattern, if the given counts are added for the streams that are arrived
at. -/
def patternCounts (mention : Mention) : Statistics :=
  { patternsConverted := 1 } + (mention.patternArrivals.map total).sum

/-- What is added for an external object. -/
def xobjectCounts (mention : Mention) : Statistics :=
  { xobjectsProcessed := 1
    imagesConverted := mention.isReplacedImage.toNat
    formsConverted := mention.isForm.toNat } + (mention.formArrivals.map total).sum

end Mention

namespace Conversion
open Change

variable {convert : StreamConversion} {total : Arrival → Statistics}

/-- Whether a conversion of streams adds the given counts for each. -/
def StreamConversion.Adds (convert : StreamConversion) (total : Arrival → Statistics) : Prop :=
  ∀ location content scene value after, convert location content scene = .ok value after →
    after.converter.statistics = scene.converter.statistics + total ⟨location, content, scene⟩

section Streams

variable {location : Option ObjectId} {content bytes : Bytes} {scene settled : Scene}
  {job left : Job} {walk next : Walk}

/-- Making a pattern space gray counts nothing. -/
theorem statistics_convertPatternSpace (name : String) :
    Respects (fun scene : Scene => scene.converter.statistics) Eq (convertPatternSpace name) := by
  refine respects_get.bind fun scene => (respects_lift _).bind fun location => ?_
  split_ifs
  · exact respects_pure _
  · refine (respects_lift _).bind fun space => ?_
    cases space with
    | patternOver underlying =>
        refine Respects.bind (fun scene => ?_) fun _ => ?_
        · exact congrArg Converter.statistics (Scene.converter_onScope _ scene)
        · cases location with
          | none => exact respects_pure _
          | some location => exact respects_modify fun _ => rfl
    | _ => exact respects_pure _

/-- A stream that is converted with its pattern spaces is counted. -/
theorem statistics_convertOwn (adds : convert.Adds total)
    (done : convertOwn convert location content scene = .ok bytes settled) :
    settled.converter.statistics =
      scene.converter.statistics + total ⟨location, content, scene⟩ := by
  simp only [convertOwn, bind_eq_ok, pure_eq_ok] at done
  obtain ⟨⟨_, names⟩, middle, converted, _, _, spaces, rfl, rfl⟩ := done
  rw [← adds _ _ _ _ _ converted]
  exact ((respects_forM statistics_convertPatternSpace names.toList).of_ok spaces).symm

/-- A stream that is converted under resources of its own is counted. -/
theorem statistics_convertContent {source gray : ContentStream} {own : Resources}
    (adds : convert.Adds total)
    (done : convertContent convert source content own job = .ok gray left) :
    left.converter.statistics =
      job.converter.statistics + total ⟨source.location, content, ⟨job, own⟩⟩ := by
  simp only [convertContent, bind_eq_ok, get_eq_ok] at done
  obtain ⟨⟨_, after⟩, _, converted, _, _, ⟨rfl, rfl⟩, done⟩ := done
  obtain ⟨scene, inside, _, rfl⟩ := withResources_eq_ok.1 converted
  obtain rfl : scene.toJob = left := by
    cases after <;> exact (pure_eq_ok.1 done).2
  exact statistics_convertOwn adds inside

/-- A pattern that is converted is counted by its cell, if that sets its own colors. -/
theorem statistics_convertPattern {pattern gray : Pattern} (adds : convert.Adds total)
    (done : convertPattern convert pattern job = .ok gray left) :
    left.converter.statistics =
      job.converter.statistics + ((patternArrivals pattern job).map total).sum := by
  unfold convertPattern at done
  cases pattern with
  | tiling cell paintType =>
      dsimp only at done
      split at done
      · rename_i setsColors
        simp only [bind_eq_ok, get_eq_ok, lift_eq_ok, pure_eq_ok] at done
        obtain ⟨_, _, ⟨rfl, rfl⟩, content, _, ⟨isContent, rfl⟩, own, _, ⟨isOwn, rfl⟩, gray, _,
          converted, _, rfl⟩ := done
        have arrives : cell.arrival job default =
            .ok ⟨cell.location, content, ⟨job, own.getD default⟩⟩ := by
          simp only [ContentStream.arrival, isContent, isOwn]
          rfl
        simpa [patternArrivals, setsColors, arrives, Except.toOption] using
          statistics_convertContent adds converted
      · rename_i keepsColors
        obtain ⟨_, rfl⟩ := pure_eq_ok.1 done
        simp [patternArrivals, keepsColors]
  | shading entries shading location =>
      simp only [bind_eq_ok, Job.onDocument, within_eq_ok] at done
      obtain ⟨gray, _, ⟨_, _, rfl⟩, done⟩ := done
      cases location with
      | none =>
          obtain ⟨_, rfl⟩ := pure_eq_ok.1 done
          exact (add_zero _).symm
      | some target =>
          simp only [bind_eq_ok, within_eq_ok, pure_eq_ok] at done
          obtain ⟨_, _, ⟨_, _, rfl⟩, _, rfl⟩ := done
          exact (add_zero _).symm

/-- A form that is converted is counted. -/
theorem adds_convertForm {form gray : ContentStream} (adds : convert.Adds total)
    (done : convertForm convert form walk = .ok gray next) :
    walk.Adds (((form.arrival walk.toJob walk.resources).toOption.toList.map total).sum)
      next := by
  simp only [convertForm, bind_eq_ok, get_eq_ok, lift_eq_ok] at done
  obtain ⟨_, _, ⟨rfl, rfl⟩, content, _, ⟨isContent, rfl⟩, own, _, ⟨isOwn, rfl⟩, done⟩ := done
  have arrives : form.arrival walk.toJob walk.resources =
      .ok ⟨form.location, content, ⟨walk.toJob, own.getD walk.resources⟩⟩ := by
    simp only [ContentStream.arrival, isContent, isOwn]
    rfl
  simp only [arrives, Except.toOption, Option.toList_some, List.map_cons, List.map_nil,
    List.sum_cons, List.sum_nil, add_zero]
  cases own with
  | some own => exact Walk.adds_onJob done fun job atJob => statistics_convertContent adds atJob
  | none =>
      simp only [bind_eq_ok, modify_eq_ok, get_eq_ok, pure_eq_ok] at done
      obtain ⟨⟨_, names⟩, _, converted, _, _, rfl, _, _, ⟨rfl, rfl⟩, _, rfl⟩ := done
      obtain ⟨statistics, patterns, shadings, xobjects⟩ :=
        Walk.adds_onScene converted fun scene atScene => adds _ _ _ _ _ atScene
      exact ⟨statistics, patterns, shadings, xobjects⟩

/-- An image that is converted is replaced exactly if it is to be. -/
theorem isSome_of_convertImage {image : Stream} {result : Option Stream}
    (done : convertImage image job = .ok result left) :
    (objectTask job image).toOption.any ImageTask.replaces = result.isSome := by
  simp only [convertImage, bind_eq_ok, get_eq_ok, lift_eq_ok] at done
  obtain ⟨_, _, ⟨rfl, rfl⟩, isMask, _, ⟨mask, rfl⟩, done⟩ := done
  cases isMask with
  | true =>
      obtain ⟨rfl, _⟩ := pure_eq_ok.1 done
      simp [objectTask, mask, bind, Except.bind, pure, Except.pure, Except.toOption,
        ImageTask.replaces, ImageTask.replacesSpace, ImageTask.replacesSamples]
  | false =>
      simp only [Bool.false_eq_true, if_false, bind_eq_ok, lift_eq_ok] at done
      obtain ⟨space, _, ⟨hasSpace, rfl⟩, task, _, ⟨hasTask, rfl⟩, done⟩ := done
      have isTask : objectTask job image = .ok task := by
        simp [objectTask, mask, hasSpace, hasTask, bind, Except.bind]
      rw [isTask]
      cases task with
      | keep =>
          obtain ⟨rfl, _⟩ := pure_eq_ok.1 done
          rfl
      | replaceSpace gray =>
          simp only [bind_eq_ok, pure_eq_ok] at done
          obtain ⟨_, _, _, rfl, _⟩ := done
          rfl
      | replaceSamples space encoder =>
          simp only [bind_eq_ok, lift_eq_ok, pure_eq_ok] at done
          obtain ⟨_, _, _, _, _, _, ⟨_, _⟩, _, _, rfl, _⟩ := done
          rfl

/-- An external object that is converted is counted as what it is. -/
theorem adds_convertXObjectAs {name : String} {object : XObject} (adds : convert.Adds total)
    (isObject : walk.scope.xobject name = .ok object)
    (done : convertXObjectAs convert name object (walk.noteXObject name) = .ok ⟨⟩ next) :
    (walk.noteXObject name).Adds
      ({ imagesConverted := (Mention.mk name walk).isReplacedImage.toNat
         formsConverted := (Mention.mk name walk).isForm.toNat } +
        ((Mention.mk name walk).formArrivals.map total).sum) next := by
  simp only [Mention.isReplacedImage, Mention.isForm, Mention.formArrivals, isObject]
  cases object with
  | image image =>
      obtain ⟨result, middle, converted, done⟩ := bind_eq_ok.1 done
      obtain ⟨job, atJob, rfl⟩ := onJob_eq_ok.1 converted
      have replaced : (objectTask walk.toJob image).toOption.any ImageTask.replaces =
          result.isSome := by
        rw [← isSome_of_convertImage atJob]
        rfl
      obtain rfl := eq_of_convertImage atJob
      simp only [replaced, List.map_nil, List.sum_nil, add_zero]
      cases result with
      | none =>
          obtain ⟨_, rfl⟩ := pure_eq_ok.1 done
          exact .refl _
      | some gray =>
          obtain ⟨_, _, stored, counted⟩ := bind_eq_ok.1 done
          have whole := (Walk.adds_setResource stored).trans
            (Walk.adds_count { imagesConverted := 1 } (fun _ => rfl) counted)
          rw [zero_add] at whole
          exact whole
  | form form =>
      simp only [convertXObjectAs, bind_eq_ok] at done
      obtain ⟨gray, _, converted, _, _, stored, counted⟩ := done
      have whole := ((adds_convertForm adds converted).trans (Walk.adds_setResource stored)).trans
        (Walk.adds_count { formsConverted := 1 } (fun _ => rfl) counted)
      rw [add_zero, add_comm] at whole
      exact whole
  | other stream =>
      obtain ⟨_, rfl⟩ := pure_eq_ok.1 done
      exact .refl _

end Streams

end Conversion
end Monochrome
