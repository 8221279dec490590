import Monochrome.Proofs.Conversion.Mirrored
import Monochrome.Proofs.Conversion.PaintedImages
import Monochrome.Proofs.Conversion.Repeating
import Monochrome.Proofs.Image.Agreeing

/-!
# Content in gray

What content becomes can be told without converting anything: every color is told in the space that
the resources name, as if no pattern space had become gray.  A walk in which each name stands for
that space, or for one that is remembered to have been it, writes the same operations.
-/

namespace Monochrome
namespace Conversion
open Change

/-- The operands that set the gray level of a color, with the pattern that is over it. -/
def grayOperands (ink : Ink) : Outcome (List Object) := do
  match ink.color with
  | .components values => return [grayLevel (← ink.space.toRgb values)]
  | .pattern name underlying =>
    let pattern := Object.name (Text.toBytes name)
    match underlying, ink.space with
    | none, _ => return [pattern]
    | some values, .patternOver space => return [grayLevel (← space.toRgb values), pattern]
    | some _, _ => throw (.mismatch .underlyingSpace)

/-- The operation that sets the gray level of red, green and blue. -/
def grayRgb (slot : Slot) (operation : Operation) : Outcome Operation := do
  Operands.expectCount operation.keyword operation.operands 3
  match ← Operands.numbers operation.keyword operation.operands with
  | [red, green, blue] =>
    let level := luminance (Precision.widen red) (Precision.widen green) (Precision.widen blue)
    return ⟨slot.grayKeyword, [grayOperand level]⟩
  | _ => return operation

/-- The operation that sets the gray level of four inks. -/
def grayInks (slot : Slot) (operation : Operation) : Outcome Operation := do
  Operands.expectCount operation.keyword operation.operands 4
  match ← Operands.numbers operation.keyword operation.operands with
  | [cyan, magenta, yellow, black] =>
    let level := inkLuminance (Precision.widen cyan) (Precision.widen magenta)
      (Precision.widen yellow) (Precision.widen black)
    return ⟨slot.grayKeyword, [grayOperand level]⟩
  | _ => return operation

/-- The inline image in gray. -/
def grayInlineImage (options : Options) (scope : Scope) (image : Stream) : Outcome Stream := do
  if InlineImage.isMask image then return image
  let space ← InlineImage.colorSpace scope image
  match ← imageTask options scope.document image.entries space false with
  | .keep => return image
  | .replaceSpace gray =>
    return InlineImage.withColorSpace image (gray.toObject.run scope.document).1
  | .replaceSamples space encoder =>
    let colors ← (← InlineImage.samples scope image).toRgb space
    InlineImage.withGray image colors.toGray encoder

/-- The operation in gray, in the graphics state that has followed it. -/
def grayFollowed (options : Options) (scope : Scope) (state : GraphicsState)
    (operation : Operation) : Outcome Operation := do
  match Operator.ofKeyword operation.keyword with
  | .saveState | .restoreState | .setGray _ | .other | .paintShading | .paintXObject =>
    return operation
  | .setSpace slot =>
    if (state.ink slot).space.isPattern then return operation
    else return { operation with operands := [.named "DeviceGray"] }
  | .setColor slot | .setPatternColor slot =>
    return { operation with operands := ← grayOperands (state.ink slot) }
  | .setRgb slot => grayRgb slot operation
  | .setCmyk slot => grayInks slot operation
  | .inlineImage =>
    let image ← Operands.inlineImage operation.operands
    return Content.imageOperation (← grayInlineImage options scope image)

/-- The operations in gray, from a graphics state on. -/
def grayOperations (options : Options) (scope : Scope) :
    GraphicsState → List Operation → Outcome (List Operation)
  | _, [] => .ok []
  | state, operation :: rest => do
    let state ← state.follow scope operation
    let gray ← grayFollowed options scope state operation
    return gray :: (← grayOperations options scope state rest)

/-- The content in gray, with every color told in the space that the resources name. -/
def grayContent (options : Options) (scope : Scope) (content : Bytes) : Outcome Bytes := do
  Content.write (← grayOperations options scope default (← Content.read content))

end Conversion

/-- Whether a scene tells the spaces that another scope has: each name of its own stands for the
space there, or the converter remembers that it stood for that space.  The parts of inline images
are those of a kind, on which the documents agree. -/
structure Scene.TellsAs (kind : Object → Prop) (scene : Scene) (scope : Scope) : Prop where
  told name space : (ColorSpace.ofName? name : Option (ColorSpace Float32 Float)) = none →
    scene.scope.colorSpace name = .ok space →
      ∃ told, scope.colorSpace name = .ok told ∧ told.isPattern = space.isPattern ∧
        ∃ former, Conversion.formerSpace? scene name = .ok former ∧ former.getD space = told ∧
          (former.isSome = true → told.isPattern = true)
  agree : scene.document.Agree kind scope.document

/-- Whether an inline image is made of parts of a kind, and has no pattern space for its samples. -/
def Stream.IsPlainImage (kind : Object → Prop) (scope : Scope) (image : Stream) : Prop :=
  kind image.toObject ∧
    ∀ space, InlineImage.colorSpace scope image = .ok space → space.isPattern = false

/-- Whether an operation is no inline image, or one made of parts of a kind without patterns. -/
def Operation.HasPlainImage (kind : Object → Prop) (scope : Scope) (operation : Operation) : Prop :=
  ∀ image, Operator.ofKeyword operation.keyword = .inlineImage →
    Operands.inlineImage operation.operands = .ok image → image.IsPlainImage kind scope

namespace Conversion
open Change

variable {kind : Object → Prop} {scene left : Scene} {scope : Scope} {image gray : Stream}
variable {convert : StreamConversion} {walk after : Walk} {operation converted : Operation}

/-- The color space of an inline image is the one that the scope has. -/
theorem colorSpace_of_tellsAs (tells : scene.TellsAs kind scope) (plain : image.IsPlainImage kind scope)
    {space : ColorSpace Float32 Float}
    (found : InlineImage.colorSpace scene.scope image = .ok space) :
    InlineImage.colorSpace scope image = .ok space := by
  have holds : Document.Agree.Holds kind image.entries :=
    Document.holds_of_entries? tells.agree.leads plain.1 rfl
  have noPattern := plain.2
  unfold InlineImage.colorSpace at found noPattern ⊢
  split_ifs at found noPattern ⊢
  · exact found
  · cases isEntry : InlineImage.shortFirst? image "ColorSpace" "CS" with
    | none =>
        rw [isEntry] at found
        exact found
    | some object =>
        rw [isEntry] at found noPattern
        have isKind : kind object := by
          unfold InlineImage.shortFirst? at isEntry
          rcases Option.or_eq_some_iff.1 isEntry with isShort | ⟨_, isFull⟩
          · exact holds _ _ isShort
          · exact holds _ _ isFull
        cases object with
        | name bytes =>
            dsimp only at found noPattern ⊢
            cases own : (ColorSpace.ofName? (Text.ofBytes bytes) :
                Option (ColorSpace Float32 Float)) with
            | some device =>
                rw [own] at found
                exact found
            | none =>
                rw [own] at found noPattern
                obtain ⟨told, atName, samePattern, former, _, same, isPattern⟩ :=
                  tells.told _ space own found
                have isPlain : told.isPattern = false := noPattern told atName
                cases former with
                | none =>
                    obtain rfl : space = told := same
                    exact atName
                | some former =>
                    rw [isPattern rfl] at isPlain
                    cases isPlain
        | _ => exact ColorSpace.carries_read tells.agree.leads isKind _ found

/-- An inline image becomes what it becomes in the scope. -/
theorem grayInlineImage_of_convertInlineImage (tells : scene.TellsAs kind scope)
    (plain : image.IsPlainImage kind scope)
    (done : convertInlineImage image scene = .ok gray left) :
    grayInlineImage scene.converter.options scope image = .ok gray := by
  have holds : Document.Agree.Holds kind image.entries :=
    Document.holds_of_entries? tells.agree.leads plain.1 rfl
  simp only [convertInlineImage, bind_eq_ok, get_eq_ok] at done
  obtain ⟨_, _, ⟨rfl, rfl⟩, done⟩ := done
  unfold grayInlineImage
  split_ifs at done ⊢
  · obtain ⟨rfl, _⟩ := pure_eq_ok.1 done
    rfl
  · simp only [bind_eq_ok, lift_eq_ok] at done
    obtain ⟨space, _, ⟨atSpace, rfl⟩, task, _, ⟨atTask, rfl⟩, done⟩ := done
    refine Outcome.bind_eq_ok.2 ⟨space, colorSpace_of_tellsAs tells plain atSpace, ?_⟩
    refine Outcome.bind_eq_ok.2 ⟨task, carries_imageTask tells.agree.leads holds _ atTask, ?_⟩
    cases task with
    | keep =>
        obtain ⟨rfl, _⟩ := pure_eq_ok.1 done
        rfl
    | replaceSpace partner =>
        obtain ⟨last, palette, rfl⟩ := eq_indexed_of_imageTask atTask
        obtain ⟨object, _, stored, done⟩ := bind_eq_ok.1 done
        obtain ⟨rfl, _⟩ := pure_eq_ok.1 done
        obtain ⟨rfl, _⟩ := EStateM.Result.ok.inj stored
        rfl
    | replaceSamples space encoder =>
        simp only [bind_eq_ok, lift_eq_ok] at done
        obtain ⟨samples, _, ⟨atSamples, rfl⟩, colors, _, ⟨atColors, rfl⟩, _, _, _, done⟩ := done
        have carried := InlineImage.carries_samples tells.agree.leads holds
          fun space found => colorSpace_of_tellsAs tells plain found
        refine Outcome.bind_eq_ok.2 ⟨samples, carried _ atSamples, ?_⟩
        exact Outcome.bind_eq_ok.2 ⟨colors, atColors, done.1⟩

/-- The operands of a color are its gray level, in the space that the walk has for it. -/
theorem grayOperands_of_convertColor {ink : Ink} {operands : List Object}
    (done : convertColor convert ink walk = .ok operands after) :
    grayOperands ink = .ok operands := by
  obtain ⟨space, color⟩ := ink
  cases color with
  | components values =>
      simp only [convertColor, bind_eq_ok, lift_eq_ok, pure_eq_ok] at done
      obtain ⟨color, _, ⟨seen, rfl⟩, rfl, _⟩ := done
      exact Outcome.bind_eq_ok.2 ⟨color, seen, rfl⟩
  | pattern name underlying =>
      simp only [convertColor, bind_eq_ok] at done
      obtain ⟨_, middle, _, done⟩ := done
      unfold grayOperands
      dsimp only
      split at done
      · obtain ⟨rfl, _⟩ := pure_eq_ok.1 done
        rfl
      · simp only [bind_eq_ok, lift_eq_ok, pure_eq_ok] at done
        obtain ⟨color, _, ⟨seen, rfl⟩, rfl, _⟩ := done
        exact Outcome.bind_eq_ok.2 ⟨color, seen, rfl⟩
      · exact (throw_eq_ok.1 done).elim

/-- The operation that sets the gray level of a device color is the same without a walk. -/
theorem grayRgb_of_convertRgb {slot : Slot}
    (done : convertRgb slot operation walk = .ok converted after) :
    grayRgb slot operation = .ok converted ∧ after.state = walk.state := by
  refine ⟨?_, (Walk.beside_of_ok (isBeside_convertRgb slot operation) done).state⟩
  simp only [convertRgb, bind_eq_ok, lift_eq_ok, Operands.expectCount_eq_ok] at done
  obtain ⟨_, _, ⟨count, rfl⟩, values, _, ⟨numbers, rfl⟩, done⟩ := done
  refine Outcome.bind_eq_ok.2 ⟨⟨⟩, Operands.expectCount_eq_ok.2 count, Outcome.bind_eq_ok.2 ⟨values, numbers, ?_⟩⟩
  obtain ⟨red, green, blue, rfl⟩ := numbers_three count numbers
  rw [eq_of_counted done]
  rfl

/-- The operation that sets the gray level of inks is the same without a walk. -/
theorem grayInks_of_convertInks {slot : Slot}
    (done : convertInks slot operation walk = .ok converted after) :
    grayInks slot operation = .ok converted ∧ after.state = walk.state := by
  refine ⟨?_, (Walk.beside_of_ok (isBeside_convertInks slot operation) done).state⟩
  simp only [convertInks, bind_eq_ok, lift_eq_ok, Operands.expectCount_eq_ok] at done
  obtain ⟨_, _, ⟨count, rfl⟩, values, _, ⟨numbers, rfl⟩, done⟩ := done
  refine Outcome.bind_eq_ok.2 ⟨⟨⟩, Operands.expectCount_eq_ok.2 count, Outcome.bind_eq_ok.2 ⟨values, numbers, ?_⟩⟩
  obtain ⟨cyan, magenta, yellow, black, rfl⟩ := numbers_four count numbers
  rw [eq_of_counted done]
  rfl

/-- The space that an operand names is one that the name stands for by itself, or one of the
resources. -/
theorem namedSpace_eq_ok {keyword : String} {operands : List Object}
    {space : ColorSpace Float32 Float} :
    GraphicsState.namedSpace scope keyword operands = .ok space ↔
      ∃ name, Operands.singleName keyword operands = .ok name ∧
        (ColorSpace.ofName? name = some space ∨
          (ColorSpace.ofName? name : Option (ColorSpace Float32 Float)) = none ∧
            scope.colorSpace name = .ok space) := by
  unfold GraphicsState.namedSpace
  rw [Outcome.bind_eq_ok]
  refine exists_congr fun name => and_congr_right fun _ => ?_
  cases ColorSpace.ofName? name with
  | none => simp
  | some device => simp [Outcome.pure_eq_ok]

/-- A space that is selected has its first color, and nothing else can be selected. -/
theorem eq_setInk_of_follow {slot : Slot} {state followed : GraphicsState}
    (isSpace : Operator.ofKeyword operation.keyword = .setSpace slot)
    (done : state.follow scope operation = .ok followed) :
    ∃ keyword space, GraphicsState.namedSpace scope keyword operation.operands = .ok space ∧
      followed = state.setInk slot (.initial space) := by
  simp only [GraphicsState.follow, GraphicsState.apply, isSpace, Operator.slot?,
    GraphicsState.inkAfter, Outcome.bind_eq_ok, Outcome.pure_eq_ok] at done
  obtain ⟨_, ⟨space, selected, rfl⟩, rfl⟩ := done
  exact ⟨_, space, selected, rfl⟩

/-- Noting the pattern space that was selected selects the one that is remembered for it. -/
theorem state_of_noteSpace {slot : Slot} {name : String} {space : ColorSpace Float32 Float}
    {former : Option (ColorSpace Float32 Float)}
    (current : walk.state.ink slot = .initial space)
    (atName : formerSpace? walk.toScene name = .ok former)
    (noted : noteSpace slot name walk = .ok ⟨⟩ after) :
    after.state = walk.state.setInk slot (.initial (former.getD space)) := by
  simp only [noteSpace, bind_eq_ok, get_eq_ok, lift_eq_ok] at noted
  obtain ⟨_, _, ⟨rfl, rfl⟩, known, _, ⟨isKnown, rfl⟩, noted⟩ := noted
  obtain rfl : former = known := Except.ok.inj (atName.symm.trans isKnown)
  cases former with
  | none =>
      rw [modify_eq_ok] at noted
      subst noted
      rw [Option.getD_none, ← current]
      exact (setInk_ink walk.state slot).symm
  | some former =>
      simp only [bind_eq_ok, modify_eq_ok] at noted
      obtain ⟨_, _, rfl, rfl⟩ := noted
      rfl

/-- Selecting a color space selects the one that the scope has, and stays if that is a pattern
space. -/
theorem follow_of_convertSpace {slot : Slot} {state : GraphicsState} (options : Options)
    (isSpace : Operator.ofKeyword operation.keyword = .setSpace slot)
    (tells : walk.toScene.TellsAs kind scope)
    (followed : state.follow walk.scope operation = .ok walk.state)
    (done : convertSpace slot operation walk = .ok converted after) :
    state.follow scope operation = .ok after.state ∧
      grayFollowed options scope after.state operation = .ok converted := by
  obtain ⟨keyword, space, selected, moved⟩ := eq_setInk_of_follow isSpace followed
  obtain ⟨name, named, known⟩ := namedSpace_eq_ok.1 selected
  have namedHere (other : String) : Operands.singleName other operation.operands = .ok name :=
    Operands.singleName_eq_ok.2 (Operands.singleName_eq_ok.1 named)
  have current : walk.state.ink slot = .initial space := by rw [moved, ink_setInk]
  have selects {told : ColorSpace Float32 Float} (isTold : ColorSpace.ofName? name = some told ∨
      (ColorSpace.ofName? name : Option (ColorSpace Float32 Float)) = none ∧
        scope.colorSpace name = .ok told) :
      state.follow scope operation = .ok (state.setInk slot (.initial told)) :=
    GraphicsState.follow_space state isSpace fun other => namedSpace_eq_ok.2 ⟨name, namedHere other, isTold⟩
  cases isPattern : space.isPattern with
  | false =>
      have same : state.follow scope operation = .ok walk.state := by
        rw [moved]
        refine selects (known.imp_right fun ⟨own, found⟩ => ⟨own, ?_⟩)
        obtain ⟨told, atName, samePattern, former, _, isTold, onlyPatterns⟩ :=
          tells.told name space own found
        cases former with
        | none => exact atName.trans (congrArg Except.ok isTold.symm)
        | some former => simp [samePattern, isPattern] at onlyPatterns
      simp only [convertSpace, bind_eq_ok, get_eq_ok] at done
      obtain ⟨_, _, ⟨rfl, rfl⟩, done⟩ := done
      have isPlain : (walk.state.ink slot).space.isPattern = false := by
        rw [current]
        exact isPattern
      rw [if_neg (by simp [isPlain])] at done
      rw [(Walk.beside_of_ok (isBeside_counted _) done).state, eq_of_counted done]
      refine ⟨same, ?_⟩
      simp [grayFollowed, isSpace, isPlain, pure, Except.pure]
  | true =>
      have isStill : (walk.state.ink slot).space.isPattern = true := by
        rw [current]
        exact isPattern
      obtain ⟨rfl, noted⟩ := (convertSpace_of_pattern (namedHere _) isStill).1 done
      have stays {told : ColorSpace Float32 Float} (toldPattern : told.isPattern = true)
          (isTold : after.state = state.setInk slot (.initial told)) :
          grayFollowed options scope after.state converted = .ok converted := by
        have isAfter : (after.state.ink slot).space.isPattern = true := by
          rw [isTold, ink_setInk]
          exact toldPattern
        simp [grayFollowed, isSpace, isAfter, pure, Except.pure]
      rcases known with device | ⟨own, found⟩
      · rw [if_pos (eq_pattern_of_ofName? device isPattern)] at noted
        subst noted
        exact ⟨moved ▸ selects (Or.inl device), stays isPattern moved⟩
      · obtain ⟨told, atName, samePattern, former, isFormer, isTold, _⟩ :=
          tells.told name space own found
        rw [if_neg (by rintro rfl; simp [ColorSpace.ofName?] at own)] at noted
        have after := state_of_noteSpace current isFormer noted
        rw [isTold, moved, setInk_setInk] at after
        exact ⟨after ▸ selects (Or.inr ⟨own, atName⟩),
          stays (samePattern.trans isPattern) after⟩

/-- Only selecting a color space depends on the resources. -/
theorem follow_congr {state : GraphicsState} (first second : Scope)
    (notSpace : ∀ slot, Operator.ofKeyword operation.keyword ≠ .setSpace slot) :
    state.follow first operation = state.follow second operation := by
  unfold GraphicsState.follow
  cases isOperator : Operator.ofKeyword operation.keyword with
  | setSpace slot => exact absurd isOperator (notSpace slot)
  | _ => rfl

/-- An operation is converted to what it becomes in the scope, and moves the graphics state as it
does there. -/
theorem grayFollowed_of_convertOperation (remembers : convert.Remembers)
    (tells : walk.toScene.TellsAs kind scope) (plain : operation.HasPlainImage kind scope)
    (done : convertOperation convert operation walk = .ok converted after) :
    walk.state.follow scope operation = .ok after.state ∧
      grayFollowed walk.converter.options scope after.state operation = .ok converted := by
  obtain ⟨state, followed, done⟩ := convertOperation_eq_ok.1 done
  have beside (notSpace : ∀ slot, Operator.ofKeyword operation.keyword ≠ .setSpace slot)
      (same : after.state = state) : walk.state.follow scope operation = .ok after.state := by
    rw [same, ← followed]
    exact follow_congr _ _ notSpace
  have color (slot : Slot)
      (isColor : Operator.ofKeyword operation.keyword = .setColor slot ∨
        Operator.ofKeyword operation.keyword = .setPatternColor slot)
      (done : (do
        let operands ← convertColor convert ((← get).state.ink slot)
        counted { operation with operands := operands } : Change Walk Operation)
          { walk with state := state } = .ok converted after) :
      walk.state.follow scope operation = .ok after.state ∧
        grayFollowed walk.converter.options scope after.state operation = .ok converted := by
    simp only [bind_eq_ok, get_eq_ok] at done
    obtain ⟨_, _, ⟨rfl, rfl⟩, operands, middle, atColor, done⟩ := done
    have early := Walk.beside_of_ok (isBeside_convertColor remembers _) atColor
    have late := Walk.beside_of_ok (isBeside_counted _) done
    have same : after.state = state := late.state.trans early.state
    refine ⟨beside (fun other isSpace => by simp [isSpace] at isColor) same, ?_⟩
    have atOperands := grayOperands_of_convertColor atColor
    rw [eq_of_counted done, same]
    rcases isColor with isColor | isColor <;>
      simp [grayFollowed, isColor, atOperands, bind, Except.bind, pure, Except.pure]
  unfold convertFollowed at done
  cases isOperator : Operator.ofKeyword operation.keyword with
  | saveState | restoreState | setGray | other =>
      simp only [isOperator, pure_eq_ok] at done
      obtain ⟨rfl, rfl⟩ := done
      exact ⟨beside (by simp [isOperator]) rfl, by simp [grayFollowed, isOperator, pure, Except.pure]⟩
  | setSpace slot =>
      simp only [isOperator] at done
      have atSpace : GraphicsState.follow { walk with state := state }.scope walk.state operation =
          .ok { walk with state := state }.state := followed
      refine follow_of_convertSpace _ isOperator (?_ : Scene.TellsAs kind _ scope) atSpace done
      exact tells
  | setColor slot =>
      simp only [isOperator] at done
      exact color slot (Or.inl isOperator) done
  | setPatternColor slot =>
      simp only [isOperator] at done
      exact color slot (Or.inr isOperator) done
  | setRgb slot =>
      simp only [isOperator] at done
      obtain ⟨atRgb, same⟩ := grayRgb_of_convertRgb done
      exact ⟨beside (by simp [isOperator]) same, by simp [grayFollowed, isOperator, atRgb]⟩
  | setCmyk slot =>
      simp only [isOperator] at done
      obtain ⟨atInks, same⟩ := grayInks_of_convertInks done
      exact ⟨beside (by simp [isOperator]) same, by simp [grayFollowed, isOperator, atInks]⟩
  | paintShading =>
      simp only [isOperator, bind_eq_ok, pure_eq_ok, lift_eq_ok] at done
      obtain ⟨name, _, ⟨_, rfl⟩, _, _, atShading, rfl, rfl⟩ := done
      have same := (Walk.beside_of_ok (isBeside_convertNamedShading name) atShading).state
      exact ⟨beside (by simp [isOperator]) same, by simp [grayFollowed, isOperator, pure, Except.pure]⟩
  | inlineImage =>
      simp only [isOperator, bind_eq_ok, pure_eq_ok, lift_eq_ok] at done
      obtain ⟨image, _, ⟨isImage, rfl⟩, gray, _, atImage, rfl, rfl⟩ := done
      have same :=
        (Walk.beside_of_ok (Walk.isBeside_onScene (remembers_convertInlineImage image)) atImage).state
      obtain ⟨left, atScene, _⟩ := within_eq_ok.1 atImage
      have atGray := grayInlineImage_of_convertInlineImage tells (plain image isOperator isImage)
        atScene
      refine ⟨beside (by simp [isOperator]) same, ?_⟩
      simp [grayFollowed, isOperator, isImage, atGray, bind, Except.bind, pure, Except.pure]
  | paintXObject =>
      simp only [isOperator, bind_eq_ok, pure_eq_ok] at done
      obtain ⟨_, _, atXObjects, rfl, rfl⟩ := done
      have same := (Walk.beside_of_ok (isBeside_convertXObjects remembers _) atXObjects).state
      exact ⟨beside (by simp [isOperator]) same, by simp [grayFollowed, isOperator, pure, Except.pure]⟩

/-- Operations are converted to what they become in a scope, as long as the walk tells its
spaces. -/
theorem grayOperations_of_mapM {options : Options} {holds : Walk → Prop}
    {operations replacements : List Operation} (remembers : convert.Remembers)
    (tells : ∀ walk, holds walk → walk.toScene.TellsAs kind scope)
    (isOption : ∀ walk, holds walk → walk.converter.options = options)
    (keeps : ∀ operation walk converted after, holds walk →
      convertOperation convert operation walk = .ok converted after → holds after)
    (plain : ∀ operation ∈ operations, operation.HasPlainImage kind scope)
    (held : holds walk)
    (done : operations.mapM (convertOperation convert) walk = .ok replacements after) :
    grayOperations options scope walk.state operations = .ok replacements := by
  induction operations generalizing walk replacements with
  | nil =>
      obtain ⟨rfl, _⟩ := pure_eq_ok.1 done
      rfl
  | cons operation rest inductionHypothesis =>
      obtain ⟨converted, middle, others, atFirst, atRest, rfl⟩ := mapM_cons_eq_ok.1 done
      obtain ⟨followed, atGray⟩ := grayFollowed_of_convertOperation remembers (tells walk held)
        (plain operation List.mem_cons_self) atFirst
      rw [isOption walk held] at atGray
      have atOthers := inductionHypothesis
        (fun other isOther => plain other (List.mem_cons_of_mem _ isOther))
        (keeps operation walk converted middle held atFirst) atRest
      rw [grayOperations]
      simp [followed, atGray, atOthers, bind, Except.bind, pure, Except.pure]

end Conversion
end Monochrome
