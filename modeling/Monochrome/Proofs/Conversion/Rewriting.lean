import Monochrome.Proofs.Conversion.Repeating
import Monochrome.Proofs.ExactLevels

/-!
# Content rewritten by a new converter

What a conversion wrote is rewritten by a converter that remembers nothing, in the document and under
the resources that the conversion left.  Each operation then stays what it is, and each gray level is
computed from itself, as far as what the content paints with can be converted again, and the pattern
spaces that it selects are over gray.
-/

namespace Monochrome

/-- The scene with a converter that remembers nothing, and has the same options. -/
def Scene.afresh (scene : Scene) : Scene :=
  { scene with converter := { options := scene.converter.options } }

/-- The number of an operation that sets a color, which is a gray level after a conversion. -/
def Operation.level? (operation : Operation) : Option Float32 :=
  match Operator.ofKeyword operation.keyword with
  | .setColor _ | .setPatternColor _ => operation.operands.head?.bind Object.number?
  | _ => none

/-- Whether an operation is another one with its gray level, or the palette of its inline image,
computed once more.  What has no level stays. -/
inductive Operation.Recomputed : Operation → Operation → Prop
  /-- The same operation. -/
  | same (operation : Operation) (noLevel : operation.level? = none) :
      Recomputed operation operation
  /-- The gray level of the neutral color with that level. -/
  | level (operation : Operation) (level : Float32) (isLevel : operation.level? = some level) :
      Recomputed operation
        ⟨operation.keyword, Conversion.grayLevel (.neutral level) :: operation.operands.tail⟩
  /-- Another palette of gray for an inline image. -/
  | palette (image : Stream) (last : Int64) (bytes : Bytes) :
      Recomputed (Content.imageOperation image)
        (Content.imageOperation (InlineImage.withColorSpace image (.array
          [.named "Indexed", .named "DeviceGray", .integer last, .string bytes .hexadecimal])))

namespace Operation

variable {operation again : Operation} {operand : Object} {rest : List Object} {level : Float32}

/-- The level of an operation is its first operand. -/
theorem exists_operand_of_level? (isLevel : operation.level? = some level) :
    ∃ operand rest, operation.operands = operand :: rest ∧ operand.number? = some level := by
  unfold level? at isLevel
  split at isLevel
  · obtain ⟨operand, isFirst, number⟩ := Option.bind_eq_some_iff.1 isLevel
    obtain ⟨rest, operands⟩ := List.head?_eq_some_iff.1 isFirst
    exact ⟨operand, rest, operands, number⟩
  · obtain ⟨operand, isFirst, number⟩ := Option.bind_eq_some_iff.1 isLevel
    obtain ⟨rest, operands⟩ := List.head?_eq_some_iff.1 isFirst
    exact ⟨operand, rest, operands, number⟩
  · cases isLevel

/-- An operation that sets a color has the level that its first operand tells. -/
theorem level?_of_color {slot : Slot}
    (isColor : Operator.ofKeyword operation.keyword = .setColor slot ∨
      Operator.ofKeyword operation.keyword = .setPatternColor slot)
    (operands : operation.operands = operand :: rest) : operation.level? = operand.number? := by
  rcases isColor with isColor | isColor <;> simp [level?, isColor, operands]

/-- An operation that is computed once more is the same up to its level. -/
theorem Recomputed.sameUpToLevel (recomputed : operation.Recomputed again) :
    operation.SameUpToLevel again := by
  cases recomputed with
  | same => exact .same _
  | palette => exact .palette _ _ _
  | level _ level isLevel =>
      obtain ⟨operand, rest, operands, number⟩ := exists_operand_of_level? isLevel
      obtain ⟨keyword, own⟩ := operation
      obtain rfl : own = operand :: rest := operands
      obtain ⟨other, otherNumber⟩ :=
        Conversion.number?_grayOperand (Precision.widen (Rgb.neutral level : Rgb Float32).gray)
      exact .level _ _ _ _ (by simp [number]) (by simp [Conversion.grayLevel, otherNumber])

/-- An operation with a level becomes the one with the level of that neutral color. -/
theorem Recomputed.eq_of_level (recomputed : operation.Recomputed again)
    (isLevel : operation.level? = some level) :
    again = ⟨operation.keyword,
      Conversion.grayLevel (.neutral level) :: operation.operands.tail⟩ := by
  cases recomputed with
  | same _ noLevel =>
      rw [isLevel] at noLevel
      cases noLevel
  | palette => cases isLevel
  | level _ other isOther =>
      obtain rfl := Option.some.inj (isLevel.symm.trans isOther)
      rfl

end Operation

namespace Conversion
open Change

variable {convert : StreamConversion} {walk after : Walk} {operation again : Operation}
variable {noted : List String} {state moved : GraphicsState}

/-- Whether a level under a pattern is told as that level of gray by the space that the pattern space
is over. -/
def TellsLevel (walk : Walk) (operation : Operation) : Prop :=
  ∀ slot space level color, Operator.ofKeyword operation.keyword = .setPatternColor slot →
    (walk.state.ink slot).space = .patternOver space → operation.level? = some level →
      space.toRgb [level] = .ok color → grayLevel color = grayLevel (.neutral level)

/-- A level under a pattern is told as that level by gray. -/
theorem tellsLevel_of_gray (areGray : ∀ slot space,
    (walk.state.ink slot).space = .patternOver space → space = .deviceGray) :
    TellsLevel walk operation := by
  intro slot space level color _ isOver _ seen
  obtain rfl := areGray slot space isOver
  exact congrArg grayLevel (Except.ok.inj seen).symm

/-- An operation that only uses colors stays. -/
theorem eq_of_convertFollowed_use
    (isUse : Operator.ofKeyword operation.keyword = .paintShading ∨
      Operator.ofKeyword operation.keyword = .paintXObject ∨
      Operator.ofKeyword operation.keyword = .other)
    (done : convertFollowed convert operation walk = .ok again after) : again = operation := by
  rcases isUse with isUse | isUse | isUse
  · simp only [convertFollowed, isUse, bind_eq_ok, pure_eq_ok] at done
    obtain ⟨_, _, _, _, _, _, same, _⟩ := done
    exact same.symm
  · simp only [convertFollowed, isUse, bind_eq_ok, pure_eq_ok] at done
    obtain ⟨_, _, _, same, _⟩ := done
    exact same.symm
  · simp only [convertFollowed, isUse] at done
    exact (pure_eq_ok.1 done).1.symm

/-- What an operation becomes that sets a gray level in gray: the level computed once more. -/
theorem recomputed_of_level {slot : Slot} {operand : Object} {level : Float32}
    (isColor : Operator.ofKeyword operation.keyword = .setColor slot ∨
      Operator.ofKeyword operation.keyword = .setPatternColor slot)
    (operands : operation.operands = [operand]) (number : operand.number? = some level)
    (gray : (walk.state.ink slot).space = .deviceGray)
    (done : convertOperation convert operation walk = .ok again after) :
    operation.Recomputed again := by
  obtain ⟨state, followed, done⟩ := convertOperation_eq_ok.1 done
  rw [GraphicsState.follow_level walk.state isColor operands number gray] at followed
  obtain rfl := Except.ok.inj followed
  obtain ⟨written, middle, converted, isCounted⟩ := (convertFollowed_color isColor).1 done
  rw [ink_setInk, convertColor_level] at converted
  obtain ⟨rfl, rfl⟩ := EStateM.Result.ok.inj converted
  obtain rfl := eq_of_counted isCounted
  have isLevel : operation.level? = some level :=
    (Operation.level?_of_color isColor operands).trans number
  have recomputed := Operation.Recomputed.level operation level isLevel
  rwa [operands] at recomputed

/-- What an operation becomes that sets a pattern over a gray level: the level is computed once more,
exactly if the space that the pattern space is over tells it as that level. -/
theorem recomputed_patternOver_iff {slot : Slot} {name : String} {operand : Object}
    {level : Float32} (isColor : Operator.ofKeyword operation.keyword = .setPatternColor slot)
    (operands : operation.operands = [operand, .name (Text.toBytes name)])
    (number : operand.number? = some level)
    (pattern : (walk.state.ink slot).space.isPattern = true)
    (done : convertOperation convert operation walk = .ok again after) :
    operation.Recomputed again ↔ TellsLevel walk operation := by
  obtain ⟨state, followed, done⟩ := convertOperation_eq_ok.1 done
  have selected (keyword : String) : GraphicsState.patternColor keyword operation.operands =
      .ok (.pattern name (some [level])) := by
    rw [operands, GraphicsState.patternColor_over keyword name number]
  rw [GraphicsState.follow_pattern walk.state isColor pattern selected] at followed
  obtain rfl := Except.ok.inj followed
  obtain ⟨written, middle, converted, isCounted⟩ := (convertFollowed_color (.inr isColor)).1 done
  rw [ink_setInk] at converted
  obtain ⟨_, ⟨none, _⟩ | ⟨_, space, color, same, isOver, seen, rfl⟩⟩ :=
    convertColor_pattern_eq_ok.1 converted
  · cases none
  · cases same
    obtain rfl := eq_of_counted isCounted
    have isLevel : operation.level? = some level :=
      (Operation.level?_of_color (.inr isColor) operands).trans number
    constructor
    · intro recomputed other below tone shade isOther isBelow isTone seenBelow
      have sameSlot := isColor.symm.trans isOther
      cases sameSlot
      cases isOver.symm.trans isBelow
      cases isLevel.symm.trans isTone
      cases seen.symm.trans seenBelow
      have written := recomputed.eq_of_level isLevel
      exact (List.cons.inj (Operation.mk.inj written).2).1
    · intro tells
      have recomputed := Operation.Recomputed.level operation level isLevel
      rw [← tells slot space level color isColor isOver isLevel seen, operands] at recomputed
      exact recomputed

/-- An operation whose first operand is no number has no level, and becomes what is the same. -/
theorem recomputed_of_noNumber
    (noNumber : ∀ operand rest, operation.operands = operand :: rest → operand.number? = none)
    (same : operation.SameUpToLevel again) : operation.Recomputed again := by
  cases same with
  | same =>
      refine .same _ ?_
      cases isLevel : operation.level? with
      | none => rfl
      | some level =>
          obtain ⟨operand, rest, operands, number⟩ := Operation.exists_operand_of_level? isLevel
          rw [noNumber operand rest operands] at number
          cases number
  | level keyword first second rest number =>
      rw [noNumber first rest rfl] at number
      cases number
  | palette => exact .palette _ _ _

/-- Only where a pattern is set can a level under it be told otherwise. -/
theorem tellsLevel_of_keyword
    (notPattern : ∀ slot, Operator.ofKeyword operation.keyword ≠ .setPatternColor slot) :
    TellsLevel walk operation :=
  fun slot _ _ _ isColor => absurd isColor (notPattern slot)

/-- Without a level nothing is told of it. -/
theorem tellsLevel_of_noLevel (noLevel : operation.level? = none) : TellsLevel walk operation := by
  intro _ _ level _ _ _ isLevel
  rw [noLevel] at isLevel
  cases isLevel

/-- An operation in gray that is converted by a walk that shows its state becomes the operation with
its level computed once more, exactly if that level is told as it is. -/
theorem recomputed_iff (step : GrayStep noted state operation moved)
    (shows : state.ShowsAs walk.state)
    (done : convertOperation convert operation walk = .ok again after)
    (same : operation.SameUpToLevel again) :
    operation.Recomputed again ↔ TellsLevel walk operation := by
  have followed := convertOperation_eq_ok.1 done
  cases step with
  | save _ isSave =>
      obtain ⟨_, _, stays⟩ := followed
      simp only [convertFollowed, isSave] at stays
      obtain rfl := (pure_eq_ok.1 stays).1
      exact iff_of_true (.same _ (by simp [Operation.level?, isSave]))
        (tellsLevel_of_keyword fun slot => by simp [isSave])
  | restore _ isRestore =>
      obtain ⟨_, _, stays⟩ := followed
      simp only [convertFollowed, isRestore] at stays
      obtain rfl := (pure_eq_ok.1 stays).1
      exact iff_of_true (.same _ (by simp [Operation.level?, isRestore]))
        (tellsLevel_of_keyword fun slot => by simp [isRestore])
  | use _ isUse =>
      obtain ⟨_, _, stays⟩ := followed
      obtain rfl := eq_of_convertFollowed_use isUse stays
      refine iff_of_true (.same _ ?_) (tellsLevel_of_keyword fun slot => ?_)
      · rcases isUse with isUse | isUse | isUse <;> simp [Operation.level?, isUse]
      · rcases isUse with isUse | isUse | isUse <;> simp [isUse]
  | deviceLevel _ slot ink operand level isGray operands number plain =>
      obtain ⟨_, _, stays⟩ := followed
      simp only [convertFollowed, isGray] at stays
      obtain rfl := (pure_eq_ok.1 stays).1
      exact iff_of_true (.same _ (by simp [Operation.level?, isGray]))
        (tellsLevel_of_keyword fun slot => by simp [isGray])
  | image image =>
      refine iff_of_true (recomputed_of_noNumber ?_ same) (tellsLevel_of_keyword fun slot => ?_)
      · intro operand rest operands
        cases operands
        rfl
      · simp [Content.imageOperation, Operator.ofKeyword]
  | plainSpace _ slot ink isSpace operands plain =>
      refine iff_of_true (recomputed_of_noNumber ?_ same)
        (tellsLevel_of_keyword fun slot => by simp [isSpace])
      intro operand rest isOperand
      cases operands.symm.trans isOperand
      rfl
  | patternSpace _ slot ink name isSpace named ownName pattern unset =>
      refine iff_of_true (recomputed_of_noNumber ?_ same)
        (tellsLevel_of_keyword fun slot => by simp [isSpace])
      intro operand rest isOperand
      obtain ⟨_, single, text⟩ := Operands.singleName_eq_ok.1 named
      cases single.symm.trans isOperand
      cases operand <;> first | rfl | cases text
  | level _ slot color operand level isColor operands number plain =>
      have gray := shows.space_of_plain plain
      refine iff_of_true (recomputed_of_level isColor operands number gray done) ?_
      intro other space _ _ isOther isOver
      rcases isColor with isColor | isColor
      · cases isColor.symm.trans isOther
      · cases isColor.symm.trans isOther
        cases gray.symm.trans isOver
  | pattern _ slot name isColor operands pattern =>
      have noLevel : operation.level? = none :=
        Operation.level?_of_color (.inr isColor) operands
      refine iff_of_true (recomputed_of_noNumber ?_ same) (tellsLevel_of_noLevel noLevel)
      intro operand rest isOperand
      cases operands.symm.trans isOperand
      rfl
  | patternOver _ slot name values operand level isColor operands number pattern =>
      exact recomputed_patternOver_iff isColor operands number (shows.space_of_pattern pattern) done

/-- Whether all levels under patterns are told as they are, one after the other. -/
def TellsLevels (convert : StreamConversion) : List Operation → Walk → Prop
  | [], _ => True
  | operation :: rest, walk =>
    TellsLevel walk operation ∧
      ∀ again after, convertOperation convert operation walk = .ok again after →
        TellsLevels convert rest after

variable {operations others : List Operation}

/-- Operations in gray that a walk converts to what is the same up to levels become the operations with
their levels computed once more, exactly if all levels are told as they are. -/
theorem forall₂_recomputed_iff (remembers : convert.Remembers)
    (patterns : walk.converter.RemembersPatterns) (run : GrayRun state operations moved)
    (shows : state.ShowsAs walk.state)
    (done : operations.mapM (convertOperation convert) walk = .ok others after)
    (same : List.Forall₂ Operation.SameUpToLevel operations others) :
    List.Forall₂ Operation.Recomputed operations others ↔ TellsLevels convert operations walk := by
  induction run generalizing walk others with
  | done =>
      cases same
      exact iff_of_true .nil trivial
  | step first rest inductionHypothesis =>
      obtain ⟨again, middle, later, atFirst, atRest, rfl⟩ := mapM_cons_eq_ok.1 done
      obtain ⟨sameFirst, sameRest⟩ := List.forall₂_cons.1 same
      -- The walk goes on in a state that shows the one of the first conversion.
      have readable (name : String) (selects : Operation.Selects _ name) :=
        readsPattern_of_convertOperation selects atFirst sameFirst
      obtain ⟨next, followed, showsNext⟩ := shows.follow first readable
      obtain ⟨_, alsoFollowed, atFollowed⟩ := convertOperation_eq_ok.1 atFirst
      cases followed.symm.trans alsoFollowed
      have patternsNext : { walk with state := next }.converter.RemembersPatterns := patterns
      obtain ⟨_, _, converted, -, showsMiddle⟩ := convertFollowed_again remembers patternsNext first
        showsNext readable (repeatable_of_convertFollowed atFollowed sameFirst)
      cases atFollowed.symm.trans converted
      have keeps := (remembers_convertOperation remembers _).of_ok atFirst
      have atLater := inductionHypothesis (patterns.of_more keeps) showsMiddle atRest sameRest
      rw [List.forall₂_cons, recomputed_iff first shows atFirst sameFirst, atLater]
      refine and_congr_right fun _ => ?_
      constructor
      · intro tells other finish otherDone
        cases atFirst.symm.trans otherDone
        exact tells
      · exact fun tells => tells again middle atFirst

/-- The walk with which a converter begins that is inside no stream. -/
def firstWalk (scene : Scene) : Walk :=
  ⟨Scene.inside.setTrail [none] scene, default, {}, {}, {}, {}⟩

/-- A converter that remembers nothing can enter content. -/
theorem entering_afresh (scene : Scene) :
    entering none scene.afresh = .ok (firstWalk scene.afresh) := by
  have entered : scene.afresh.converter.trail.enter
      scene.afresh.converter.options.maxNestingDepth none = .ok [none] := by
    show (if scene.converter.options.maxNestingDepth < 0 then
      Except.error (.nesting scene.converter.options.maxNestingDepth) else Except.ok [none]) = _
    exact if_neg (Nat.not_lt_zero _)
  rw [entering, entered]
  rfl

/-- Whether content is rewritten, by a walk through its operations, to the operations with their levels
computed once more. -/
def RewritesAgain (operations : List Operation) (bytes : Bytes) (scene : Scene) : Prop :=
  ∃ others finish again after,
    operations.mapM (convertOperation (innerConversion scene)) (firstWalk scene) =
      .ok others finish ∧
    contentToGray bytes scene = .ok again after ∧ Content.write others = .ok again ∧
    List.Forall₂ Operation.Recomputed operations others

/-- Whether the pattern spaces that content selects become gray after a walk through it. -/
def SettlesAfterwards (bytes : Bytes) (scene : Scene) : Prop :=
  ∀ again noted finish,
    streamConversion scene.converter none bytes scene = .ok (again, noted) finish →
      ∃ last, noted.toList.forM convertPatternSpace finish = .ok ⟨⟩ last

end Conversion
end Monochrome
