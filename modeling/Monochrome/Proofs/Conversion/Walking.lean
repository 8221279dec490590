import Monochrome.Proofs.Conversion.Adding
import Monochrome.Proofs.Detection.Converted

/-!
# What a walk adds to the counts

Step by step, a walk through a stream adds to the counts what it passes, and notes the names that it
comes to.  What an operation adds is told by its operator, and what operations add one after the other
is told by induction.
-/

namespace Monochrome
namespace Conversion
open Change

variable {convert : StreamConversion} {total : Arrival → Statistics}

/-! ## What a walk adds -/

namespace Passage

/-- What is added for operations, shadings and inline images.  An inline image only counts if its
samples are replaced. -/
def addedAlone (passage : Passage) : Statistics where
  operatorsConverted := passage.colors
  shadingsConverted := (passage.shadings.filter (Mention.IsNew Walk.shadings)).length
  imagesConverted := passage.inlineImages.countP ImageTask.replacesSamples

/-- What is added for what a walk passes, if a name only counts that the walk has not noted. -/
def added (total : Arrival → Statistics) (passage : Passage) : Statistics :=
  passage.addedAlone +
    ((passage.patterns.filter (Mention.IsNew Walk.patterns)).map
      (Mention.patternCounts total)).sum +
    ((passage.xobjects.filter (Mention.IsNew Walk.xobjects)).map
      (Mention.xobjectCounts total)).sum

/-- Operations, shadings and inline images of two parts of a stream are added together. -/
theorem addedAlone_append (first second : Passage) :
    (first ++ second).addedAlone = first.addedAlone + second.addedAlone := by
  show Statistics.mk _ _ _ ((first.shadings ++ second.shadings).filter _).length _
    ((first.inlineImages ++ second.inlineImages).countP _) _ = _
  rw [List.filter_append, List.length_append, List.countP_append]
  rfl

/-- What is added for two parts of a stream is added together. -/
theorem added_append (first second : Passage) :
    (first ++ second).added total = first.added total + second.added total := by
  show _ + (((first.patterns ++ second.patterns).filter _).map _).sum +
    (((first.xobjects ++ second.xobjects).filter _).map _).sum = _
  rw [addedAlone_append, List.filter_append, List.filter_append, List.map_append, List.map_append,
    List.sum_append, List.sum_append, add_add_add_comm first.addedAlone,
    add_add_add_comm (first.addedAlone + _)]
  rfl

/-- A pattern adds what is to be counted for it, if it is new. -/
theorem added_pattern (mention : Mention) :
    added total { patterns := [mention] } =
      if mention.IsNew Walk.patterns then mention.patternCounts total else 0 := by
  show 0 + (([mention].filter _).map _).sum + 0 = _
  rw [add_zero, zero_add, List.filter_cons]
  split <;> simp

/-- A shading is counted, if it is new. -/
theorem added_shading (mention : Mention) :
    added total { shadings := [mention] } =
      if mention.IsNew Walk.shadings then { shadingsConverted := 1 } else 0 := by
  show Statistics.mk 0 0 0 ([mention].filter _).length 0 0 0 + 0 + 0 = _
  rw [add_zero, add_zero, List.filter_cons]
  split <;> rfl

/-- An external object adds what is to be counted for it, if it is new. -/
theorem added_xobject (mention : Mention) :
    added total { xobjects := [mention] } =
      if mention.IsNew Walk.xobjects then mention.xobjectCounts total else 0 := by
  show 0 + 0 + (([mention].filter _).map _).sum = _
  rw [zero_add, zero_add, List.filter_cons]
  split <;> simp

end Passage

/-- Whether a part of a walk adds what it passes, and notes the names that it comes to. -/
structure Passes (total : Arrival → Statistics) (before : Walk) (passage : Passage)
    (after : Walk) : Prop where
  statistics : after.converter.statistics = before.converter.statistics + passage.added total
  patterns : Mention.Noted Walk.patterns before.patterns passage.patterns after.patterns
  shadings : Mention.Noted Walk.shadings before.shadings passage.shadings after.shadings
  xobjects : Mention.Noted Walk.xobjects before.xobjects passage.xobjects after.xobjects

section Walking

variable {walk middle next : Walk} {first second : Passage} {name : String}
  {operation converted : Operation}

/-- Two parts of a walk pass what each of them does. -/
theorem Passes.append (early : Passes total walk first middle)
    (late : Passes total middle second next) : Passes total walk (first ++ second) next where
  statistics := by
    rw [late.statistics, early.statistics, Passage.added_append, add_assoc]
  patterns := early.patterns.append late.patterns
  shadings := early.shadings.append late.shadings
  xobjects := early.xobjects.append late.xobjects

/-- A part of a walk that comes to no name passes what it adds. -/
theorem passes_of_adds {colors : Nat} {images : List ImageTask}
    (adds : walk.Adds { operatorsConverted := colors
                        imagesConverted := images.countP ImageTask.replacesSamples } next) :
    Passes total walk { colors := colors, inlineImages := images } next where
  statistics := adds.statistics
  patterns := .of_eq adds.patterns
  shadings := .of_eq adds.shadings
  xobjects := .of_eq adds.xobjects

/-- A part of a walk that adds nothing passes nothing. -/
theorem passes_nothing (adds : walk.Adds 0 next) : Passes total walk {} next :=
  passes_of_adds adds

/-- An operation that is counted sets a color. -/
theorem passes_counted (done : counted operation walk = .ok converted next) :
    Passes total walk { colors := 1 } next := by
  simp only [counted, bind_eq_ok, pure_eq_ok] at done
  obtain ⟨_, _, isCounted, _, rfl⟩ := done
  exact passes_of_adds (Walk.adds_count _ (fun _ => rfl) isCounted)

/-- A color that is set is counted after its pattern, if it is one. -/
theorem Passes.counted {mentions : List Mention}
    (early : Passes total walk { patterns := mentions } middle)
    (done : counted operation middle = .ok converted next) :
    Passes total walk { colors := 1, patterns := mentions } next := by
  have together : ({ patterns := mentions } : Passage) ++ { colors := 1 } =
      { colors := 1, patterns := mentions } := by
    show Passage.mk 1 [] (mentions ++ []) [] [] = _
    rw [List.append_nil]
  exact together ▸ early.append (passes_counted done)

/-- A pattern that is converted is passed. -/
theorem passes_convertNamedPattern (adds : convert.Adds total)
    (done : convertNamedPattern convert name walk = .ok ⟨⟩ next) :
    Passes total walk { patterns := [⟨name, walk⟩] } next := by
  rw [convertNamedPattern_apply, useOnce_eq_ok] at done
  split_ifs at done with known
  · subst done
    refine ⟨?_, .of_known known, .nil _, .nil _⟩
    simp [Passage.added_pattern, Mention.IsNew, known]
  · obtain ⟨pattern, isPattern, done⟩ := done
    simp only [convertPatternAs, bind_eq_ok] at done
    obtain ⟨gray, _, converted, _, _, stored, isCounted⟩ := done
    have whole := ((Walk.adds_onJob converted fun job atJob =>
      statistics_convertPattern adds atJob).trans (Walk.adds_setResource stored)).trans
        (Walk.adds_count { patternsConverted := 1 } (fun _ => rfl) isCounted)
    rw [add_zero, add_comm] at whole
    refine ⟨?_, .of_insert whole.patterns, .of_eq whole.shadings, .of_eq whole.xobjects⟩
    rw [whole.statistics, Passage.added_pattern, if_pos (by simpa [Mention.IsNew] using known),
      Mention.patternCounts, Mention.patternArrivals, isPattern]
    rfl

/-- A shading that is converted is passed. -/
theorem passes_convertNamedShading (done : convertNamedShading name walk = .ok ⟨⟩ next) :
    Passes total walk { shadings := [⟨name, walk⟩] } next := by
  rw [convertNamedShading_apply, useOnce_eq_ok] at done
  split_ifs at done with known
  · subst done
    refine ⟨?_, .nil _, .of_known known, .nil _⟩
    simp [Passage.added_shading, Mention.IsNew, known]
  · obtain ⟨shading, _, done⟩ := done
    simp only [convertShadingAs, bind_eq_ok] at done
    obtain ⟨gray, _, converted, _, _, stored, isCounted⟩ := done
    have unchanged : (walk.noteShading name).Adds 0 _ :=
      Walk.adds_onJob converted fun job atJob => by
        obtain ⟨_, _, rfl⟩ := within_eq_ok.1 atJob
        exact (add_zero _).symm
    have whole := (unchanged.trans (Walk.adds_setResource stored)).trans
      (Walk.adds_count { shadingsConverted := 1 } (fun _ => rfl) isCounted)
    rw [add_zero, zero_add] at whole
    refine ⟨?_, .of_eq whole.patterns, .of_insert whole.shadings, .of_eq whole.xobjects⟩
    rw [whole.statistics, Passage.added_shading, if_pos (by simpa [Mention.IsNew] using known)]
    rfl

/-- An external object that is converted is passed. -/
theorem passes_convertNamedXObject (adds : convert.Adds total)
    (done : convertNamedXObject convert name walk = .ok ⟨⟩ next) :
    Passes total walk { xobjects := [⟨name, walk⟩] } next := by
  rw [convertNamedXObject_apply, useOnce_eq_ok] at done
  split_ifs at done with known
  · subst done
    refine ⟨?_, .nil _, .nil _, .of_known known⟩
    simp [Passage.added_xobject, Mention.IsNew, known]
  · obtain ⟨object, isObject, done⟩ := done
    have whole := adds_convertXObjectAs adds isObject done
    refine ⟨?_, .of_eq whole.patterns, .of_eq whole.shadings, .of_insert whole.xobjects⟩
    rw [whole.statistics, Passage.added_xobject, if_pos (by simpa [Mention.IsNew] using known),
      Mention.xobjectCounts, ← add_assoc, ← add_assoc]
    rfl

/-- The external objects that operands name are passed in order. -/
theorem passes_forM_convertNamedXObject {operands : List Object} (adds : convert.Adds total)
    (done : (operands.forM fun operand => do
      convertNamedXObject convert (← Operands.nameOf "Do" operand) : Change Walk Unit) walk =
        .ok ⟨⟩ next) :
    Passes total walk { xobjects := Passage.xobjectsOf convert operands walk } next := by
  induction operands generalizing walk with
  | nil =>
      obtain ⟨_, rfl⟩ := pure_eq_ok.1 done
      exact passes_nothing (.refl _)
  | cons operand rest inductionHypothesis =>
      obtain ⟨middle, atFirst, atRest⟩ := forM_cons_eq_ok.1 done
      obtain ⟨name, _, named, converted⟩ := bind_eq_ok.1 atFirst
      obtain ⟨isName, rfl⟩ := lift_eq_ok.1 named
      have mentions : Passage.xobjectsOf convert (operand :: rest) walk =
          ⟨name, walk⟩ :: Passage.xobjectsOf convert rest middle := by
        rw [Passage.xobjectsOf, course, atFirst]
        simp only [List.filterMap_cons, Operands.nameOf_eq_ok.1 isName]
        rfl
      rw [mentions]
      exact (passes_convertNamedXObject adds converted).append (inductionHypothesis atRest)

/-- An operation that selects a color space is counted, unless that is a pattern space. -/
theorem passes_convertSpace {slot : Slot}
    (done : convertSpace slot operation walk = .ok converted next) :
    Passes total walk { colors := if (walk.state.ink slot).space.isPattern then 0 else 1 } next := by
  simp only [convertSpace, bind_eq_ok, get_eq_ok] at done
  obtain ⟨_, _, ⟨rfl, rfl⟩, done⟩ := done
  split at done
  · rename_i isPattern
    rw [if_pos isPattern]
    simp only [bind_eq_ok, lift_eq_ok] at done
    obtain ⟨name, _, ⟨_, rfl⟩, done⟩ := done
    split at done
    · simp only [noteSpace, bind_eq_ok, get_eq_ok, lift_eq_ok, pure_eq_ok] at done
      obtain ⟨_, _, ⟨_, _, ⟨rfl, rfl⟩, former, _, ⟨_, rfl⟩, noted⟩, _, rfl⟩ := done
      refine passes_nothing ?_
      cases former <;> cases noted <;> exact ⟨(add_zero _).symm, rfl, rfl, rfl⟩
    · obtain ⟨_, rfl⟩ := pure_eq_ok.1 done
      exact passes_nothing (.refl _)
  · rename_i isPlain
    rw [if_neg isPlain]
    exact passes_counted done

/-- A color that is told by components passes nothing. -/
theorem passes_convertColor_components {space : ColorSpace Float32 Float} {values : List Float32}
    {operands : List Object}
    (done : convertColor convert ⟨space, .components values⟩ walk = .ok operands next) :
    Passes total walk {} next := by
  simp only [convertColor, bind_eq_ok, lift_eq_ok, pure_eq_ok] at done
  obtain ⟨_, _, ⟨_, rfl⟩, _, rfl⟩ := done
  exact passes_nothing (.refl _)

/-- A color that may be a pattern passes the pattern that the last operand names, in a pattern
space. -/
theorem passes_convertColor {slot : Slot} {state : GraphicsState} {operands : List Object}
    (adds : convert.Adds total)
    (isColor : Operator.ofKeyword operation.keyword = .setPatternColor slot)
    (followed : walk.state.follow walk.scope operation = .ok state)
    (done : convertColor convert (state.ink slot) { walk with state := state } =
      .ok operands next) :
    Passes total { walk with state := state }
      { patterns :=
          if (state.ink slot).space.isPattern then
            (operation.operands.getLast?.bind Object.text?).toList.map
              (⟨·, { walk with state := state }⟩)
          else [] } next := by
  obtain ⟨ink, changed, rfl⟩ := GraphicsState.exists_inkAfter (by rw [isColor]; rfl) followed
  rw [ink_setInk] at done ⊢
  rw [isColor] at changed
  simp only [GraphicsState.inkAfter] at changed
  split at changed
  · rename_i isPattern
    simp only [Outcome.bind_eq_ok, Outcome.pure_eq_ok] at changed
    obtain ⟨color, selected, rfl⟩ := changed
    obtain ⟨name, underlying, rfl, lastName⟩ :=
      GraphicsState.exists_pattern_of_patternColor selected
    rw [if_pos isPattern, lastName]
    exact passes_convertNamedPattern adds (convertColor_pattern_eq_ok.1 done).1
  · rename_i isPlain
    simp only [Outcome.bind_eq_ok, Outcome.pure_eq_ok] at changed
    obtain ⟨color, plain, rfl⟩ := changed
    obtain ⟨values, rfl⟩ := plainColor_eq_ok plain
    rw [if_neg isPlain]
    exact passes_convertColor_components done

/-- An operation that sets red, green and blue is counted. -/
theorem passes_convertRgb {slot : Slot}
    (done : convertRgb slot operation walk = .ok converted next) :
    Passes total walk { colors := 1 } next := by
  simp only [convertRgb, bind_eq_ok, lift_eq_ok, Operands.expectCount_eq_ok] at done
  obtain ⟨_, _, ⟨count, rfl⟩, values, _, ⟨numbers, rfl⟩, done⟩ := done
  obtain ⟨red, green, blue, rfl⟩ := numbers_three count numbers
  exact passes_counted done

/-- An operation that sets four inks is counted. -/
theorem passes_convertInks {slot : Slot}
    (done : convertInks slot operation walk = .ok converted next) :
    Passes total walk { colors := 1 } next := by
  simp only [convertInks, bind_eq_ok, lift_eq_ok, Operands.expectCount_eq_ok] at done
  obtain ⟨_, _, ⟨count, rfl⟩, values, _, ⟨numbers, rfl⟩, done⟩ := done
  obtain ⟨cyan, magenta, yellow, black, rfl⟩ := numbers_four count numbers
  exact passes_counted done

/-- An inline image is counted only if its samples are replaced. -/
theorem exists_task_of_convertInlineImage {image gray : Stream} {scene left : Scene}
    (done : convertInlineImage image scene = .ok gray left) :
    ∃ task, inlineTask scene image = .ok task ∧ left.converter.statistics =
      scene.converter.statistics + { imagesConverted := task.replacesSamples.toNat } := by
  simp only [convertInlineImage, bind_eq_ok, get_eq_ok] at done
  obtain ⟨_, _, ⟨rfl, rfl⟩, done⟩ := done
  split_ifs at done with isMask
  · obtain ⟨_, rfl⟩ := pure_eq_ok.1 done
    exact ⟨.keep, by rw [inlineTask, if_pos isMask]; rfl, (add_zero _).symm⟩
  · simp only [bind_eq_ok, lift_eq_ok] at done
    obtain ⟨space, _, ⟨hasSpace, rfl⟩, task, _, ⟨hasTask, rfl⟩, done⟩ := done
    have isTask : inlineTask scene image = .ok task := by
      simp [inlineTask, isMask, hasSpace, hasTask, bind, Except.bind]
    refine ⟨task, isTask, ?_⟩
    cases task with
    | keep =>
        obtain ⟨_, rfl⟩ := pure_eq_ok.1 done
        exact (add_zero _).symm
    | replaceSpace gray =>
        simp only [bind_eq_ok, pure_eq_ok] at done
        obtain ⟨_, _, stored, _, rfl⟩ := done
        rw [← (Scene.converter_onScope _).of_ok stored]
        exact (add_zero _).symm
    | replaceSamples space encoder =>
        simp only [bind_eq_ok, lift_eq_ok] at done
        obtain ⟨_, _, ⟨_, rfl⟩, _, _, ⟨_, rfl⟩, _, _, counted, _, rfl⟩ := done
        obtain ⟨_, isCounted, rfl⟩ := within_eq_ok.1 counted
        rw [← modify_eq_ok.1 isCounted]
        rfl

/-! ## Operations -/

/-- An operation that the graphics state has followed is passed. -/
theorem passes_convertFollowed {state : GraphicsState} (adds : convert.Adds total)
    (followed : walk.state.follow walk.scope operation = .ok state)
    (done : convertFollowed convert operation { walk with state := state } = .ok converted next) :
    Passes total { walk with state := state }
      (Passage.ofFollowed convert operation { walk with state := state }) next := by
  unfold convertFollowed at done
  unfold Passage.ofFollowed
  cases isOperator : Operator.ofKeyword operation.keyword with
  | saveState | restoreState | setGray | other =>
      simp only [isOperator] at done ⊢
      obtain ⟨_, rfl⟩ := pure_eq_ok.1 done
      exact passes_nothing (.refl _)
  | setSpace slot =>
      simp only [isOperator] at done ⊢
      exact passes_convertSpace done
  | setColor slot =>
      simp only [isOperator, bind_eq_ok, get_eq_ok] at done ⊢
      obtain ⟨_, _, ⟨rfl, rfl⟩, operands, middle, atColor, done⟩ := done
      obtain ⟨ink, changed, rfl⟩ := GraphicsState.exists_inkAfter (by rw [isOperator]; rfl) followed
      obtain ⟨color, rfl, ofPattern⟩ := inkAfter_setColor (Or.inl isOperator) changed
      dsimp only at atColor
      rw [ink_setInk] at atColor
      cases color with
      | components values => exact (passes_convertColor_components atColor).counted done
      | pattern name underlying =>
          have isPatternColor := (ofPattern name underlying rfl).2
          rw [isOperator] at isPatternColor
          cases isPatternColor
  | setPatternColor slot =>
      simp only [isOperator, bind_eq_ok, get_eq_ok] at done ⊢
      obtain ⟨_, _, ⟨rfl, rfl⟩, operands, middle, atColor, done⟩ := done
      exact (passes_convertColor adds isOperator followed atColor).counted done
  | setRgb slot =>
      simp only [isOperator] at done ⊢
      exact passes_convertRgb done
  | setCmyk slot =>
      simp only [isOperator] at done ⊢
      exact passes_convertInks done
  | paintShading =>
      simp only [isOperator, bind_eq_ok, lift_eq_ok, pure_eq_ok] at done ⊢
      obtain ⟨name, _, ⟨named, rfl⟩, _, _, converted, _, rfl⟩ := done
      obtain ⟨operand, isOperand, isName⟩ := Operands.singleName_eq_ok.1 named
      simp only [isOperand, List.filterMap_cons, isName, List.filterMap_nil, List.map_cons,
        List.map_nil]
      exact passes_convertNamedShading converted
  | inlineImage =>
      simp only [isOperator, bind_eq_ok, lift_eq_ok, pure_eq_ok] at done ⊢
      obtain ⟨image, _, ⟨isImage, rfl⟩, gray, _, converted, _, rfl⟩ := done
      obtain ⟨scene, atScene, rfl⟩ := within_eq_ok.1 converted
      obtain ⟨task, isTask, statistics⟩ := exists_task_of_convertInlineImage atScene
      simp only [isImage, isTask]
      refine passes_of_adds ⟨statistics.trans ?_, rfl, rfl, rfl⟩
      cases task <;> rfl
  | paintXObject =>
      simp only [isOperator, bind_eq_ok, pure_eq_ok] at done ⊢
      obtain ⟨_, _, painted, _, rfl⟩ := done
      unfold convertXObjects at painted
      split at painted
      · obtain ⟨_, _, failed, _⟩ := bind_eq_ok.1 painted
        exact (throw_eq_ok.1 failed).elim
      · exact passes_forM_convertNamedXObject adds painted

/-- An operation is passed. -/
theorem passes_convertOperation (adds : convert.Adds total)
    (done : convertOperation convert operation walk = .ok converted next) :
    Passes total walk (Passage.ofOperation convert operation walk) next := by
  obtain ⟨state, followed, done⟩ := convertOperation_eq_ok.1 done
  obtain ⟨statistics, patterns, shadings, xobjects⟩ := passes_convertFollowed adds followed done
  rw [Passage.ofOperation, followed]
  exact ⟨statistics, patterns, shadings, xobjects⟩

/-- Operations are passed one after the other. -/
theorem passes_mapM_convertOperation {operations replacements : List Operation}
    (adds : convert.Adds total)
    (done : operations.mapM (convertOperation convert) walk = .ok replacements next) :
    Passes total walk (Passage.ofOperations convert operations walk) next := by
  induction operations generalizing walk replacements with
  | nil =>
      rw [List.mapM_nil, pure_eq_ok] at done
      obtain ⟨_, rfl⟩ := done
      exact passes_nothing (.refl _)
  | cons operation rest inductionHypothesis =>
      obtain ⟨converted, middle, others, atFirst, atRest, rfl⟩ := mapM_cons_eq_ok.1 done
      rw [Passage.ofOperations, course, atFirst]
      exact (passes_convertOperation adds atFirst).append (inductionHypothesis atRest)

end Walking

end Conversion
end Monochrome
