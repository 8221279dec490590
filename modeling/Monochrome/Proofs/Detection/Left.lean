import Monochrome.Proofs.Conversion.Repeating
import Monochrome.Proofs.Detection.Converted

/-!
# What conversions leave

A stream is left in gray if its operations are those of a conversion, and each thing that they paint
with is as a conversion leaves it: the shading of a conversion, an image that a conversion changed
or keeps in the same document, a pattern space that became gray, and streams that are left in gray
in turn.  No detector says of such a stream that it is colored.
-/

namespace Monochrome
namespace Detection

/-- Whether an object is the shading that some conversion left. -/
def LeftShading (shading : Object) : Prop :=
  ∃ original before after, Shading.toGray original before = .ok shading after

/-- An image object as a conversion leaves it. -/
inductive LeftImage (options : Options) (document : Document) (image : Stream) : Prop
  /-- An image that a conversion put in the place of another one. -/
  | changed (original : Stream) (job after : Job)
      (converted : Conversion.convertImage original job = .ok (some image) after)
  /-- An image that a conversion keeps in the document. -/
  | kept (job after : Job) (sameDocument : job.document = document)
      (sameOptions : job.converter.options = options)
      (keeps : Conversion.convertImage image job = .ok none after)

/-- An inline image as a conversion leaves it, up to the entries that tell its length. -/
inductive LeftInlineImage (options : Options) (scope : Scope) (image : Stream) : Prop
  /-- An image that a conversion put in the place of another one. -/
  | changed (original product : Stream) (scene after : Scene)
      (converted : Conversion.convertInlineImage original scene = .ok product after)
      (differs : product ≠ original)
      (same : (Content.imageOperation product).SameUpToLength (Content.imageOperation image))
  /-- An image that a conversion keeps in the scope. -/
  | kept (scene after : Scene) (sameScope : scene.scope = scope)
      (sameOptions : scene.converter.options = options)
      (keeps : Conversion.convertInlineImage image scene = .ok image after)

variable (isLeft : Bytes → Scope → Prop) (options : Options) (scope : Scope)

/-- A pattern as a conversion leaves it, given what it leaves of content. -/
inductive LeftPattern : Pattern → Prop
  /-- A shading. -/
  | shading (entries : Dictionary) (shading : Object) (location : Option ObjectId)
      (left : LeftShading shading) : LeftPattern (.shading entries shading location)
  /-- A cell that does not set its own colors. -/
  | uncolored (cell : ContentStream) (paintType : Int64)
      (keepsColors : Pattern.setsColors paintType = false) : LeftPattern (.tiling cell paintType)
  /-- A cell under resources of its own. -/
  | colored (cell : ContentStream) (paintType : Int64)
      (left : ∀ content own, cell.content scope.document = .ok content →
        cell.resources? scope.document = .ok own →
          isLeft content { scope with resources := own.getD default }) :
      LeftPattern (.tiling cell paintType)

/-- An external object as a conversion leaves it, given what it leaves of content. -/
inductive LeftXObject : XObject → Prop
  /-- An image whose data is not in the one codec that a detector takes for colored. -/
  | image (image : Stream) (left : LeftImage options scope.document image)
      (avoids : AvoidsJpx options scope.document image.entries) : LeftXObject (.image image)
  /-- A form under its resources, or under those of the stream that paints it. -/
  | form (form : ContentStream)
      (left : ∀ content own, form.content scope.document = .ok content →
        form.resources? scope.document = .ok own →
          isLeft content { scope with resources := own.getD scope.resources }) :
      LeftXObject (.form form)
  /-- An object of another kind. -/
  | other (stream : Stream) : LeftXObject (.other stream)

/-- What an operation names, as a conversion leaves it, as far as it can be read. -/
structure LeftOperation (operation : Operation) : Prop where
  spaces : ∀ name, operation.Selects name → scope.HoldsSettled name
  patterns : ∀ slot name pattern,
    Operator.ofKeyword operation.keyword = .setPatternColor slot →
      operation.operands.getLast?.bind Object.text? = some name →
        scope.pattern name = .ok pattern → LeftPattern isLeft scope pattern
  shadings : ∀ name shading, Operator.ofKeyword operation.keyword = .paintShading →
    Operands.singleName operation.keyword operation.operands = .ok name →
      scope.shading name = .ok shading → LeftShading shading
  images : ∀ image, Operator.ofKeyword operation.keyword = .inlineImage →
    Operands.inlineImage operation.operands = .ok image →
      LeftInlineImage options scope image ∧ AvoidsJpx options scope.document image.entries
  xobjects : ∀ operand name xobject, Operator.ofKeyword operation.keyword = .paintXObject →
    operand ∈ operation.operands → operand.text? = some name →
      scope.xobject name = .ok xobject → LeftXObject isLeft options scope xobject

/-- Content as a conversion leaves it in which streams are nested to less than the given depth: the
operations are those of a conversion, and so is what they name.  Deeper content is not read. -/
def LeftContent (options : Options) : Nat → Bytes → Scope → Prop
  | 0, _, _ => True
  | depth + 1, content, scope =>
    ∀ operations, Content.read content = .ok operations →
      (∃ moved, GrayRun default operations moved) ∧
        ∀ operation ∈ operations,
          LeftOperation (LeftContent options depth) options scope operation

end Detection

/-- Whether the spaces of the current and all saved colors are gray. -/
def GraphicsState.InGray (state : GraphicsState) : Prop :=
  state.Related (fun _ ink => ink.space.IsGray) state

namespace GraphicsState

variable {original moved gray after : GraphicsState} {scope : Scope} {operation : Operation}

/-- The first colors are of gray. -/
theorem inGray_default : (default : GraphicsState).InGray where
  current slot := by
    cases slot <;> exact .deviceGray
  saved := .nil

/-- A color with components is no pattern. -/
theorem ne_pattern_of_plainColor {space : ColorSpace Float32 Float} {keyword : String}
    {operands : List Object} {color : Color Float32}
    (made : plainColor space keyword operands = .ok color) (name : String)
    (underlying : Option (List Float32)) : color ≠ .pattern name underlying := by
  simp only [plainColor, Outcome.bind_eq_ok, ColorSpace.makeColor] at made
  obtain ⟨values, _, made⟩ := made
  split at made
  · obtain rfl := Except.ok.inj made
    intro same
    cases same
  · cases made

/-- A color that is set in the selected space stays in it, and is a pattern only if the last operand
names it. -/
theorem exists_color_of_follow {slot : Slot}
    (isColor : Operator.ofKeyword operation.keyword = .setColor slot ∨
      Operator.ofKeyword operation.keyword = .setPatternColor slot)
    (followed : gray.follow scope operation = .ok after) :
    ∃ color, after = gray.setInk slot { gray.ink slot with color := color } ∧
      ∀ name underlying, color = .pattern name underlying →
        Operator.ofKeyword operation.keyword = .setPatternColor slot ∧
          operation.operands.getLast?.bind Object.text? = some name := by
  have setsSlot : (Operator.ofKeyword operation.keyword).slot? = some slot := by
    rcases isColor with isColor | isColor <;> rw [isColor] <;> rfl
  obtain ⟨ink, changed, rfl⟩ := exists_inkAfter setsSlot followed
  rcases isColor with isColor | isColor
  · simp only [inkAfter, isColor, Outcome.bind_eq_ok, Outcome.pure_eq_ok] at changed
    obtain ⟨color, made, rfl⟩ := changed
    exact ⟨color, rfl, fun _ _ same => absurd same (ne_pattern_of_plainColor made _ _)⟩
  · simp only [inkAfter, isColor] at changed
    split at changed
    · simp only [Outcome.bind_eq_ok, Outcome.pure_eq_ok] at changed
      obtain ⟨color, selected, rfl⟩ := changed
      obtain ⟨last, below, rfl, named⟩ := exists_pattern_of_patternColor selected
      refine ⟨_, rfl, fun name underlying same => ⟨isColor, ?_⟩⟩
      obtain ⟨rfl, _⟩ := Color.pattern.inj same
      exact named
    · simp only [Outcome.bind_eq_ok, Outcome.pure_eq_ok] at changed
      obtain ⟨color, made, rfl⟩ := changed
      exact ⟨color, rfl, fun _ _ same => absurd same (ne_pattern_of_plainColor made _ _)⟩

/-- A color of a device space is no pattern. -/
theorem ne_pattern_of_deviceInk {space : ColorSpace Float32 Float} {keyword : String}
    {operands : List Object} {ink : Ink} (made : deviceInk space keyword operands = .ok ink)
    (name : String) (underlying : Option (List Float32)) : ink.color ≠ .pattern name underlying := by
  simp only [deviceInk, Outcome.bind_eq_ok, Outcome.pure_eq_ok] at made
  obtain ⟨_, _, color, made, rfl⟩ := made
  exact ne_pattern_of_plainColor made name underlying

/-- A pattern that is the color of a slot after it was set is named by the last operand. -/
theorem named_of_follow {slot : Slot} {name : String} {underlying : Option (List Float32)}
    (followed : gray.follow scope operation = .ok after) (sets : operation.SetsColor slot)
    (isPattern : (after.ink slot).color = .pattern name underlying) :
    Operator.ofKeyword operation.keyword = .setPatternColor slot ∧
      operation.operands.getLast?.bind Object.text? = some name := by
  simp only [Operation.SetsColor, List.mem_cons, List.not_mem_nil, or_false] at sets
  rcases sets with isColor | isColor | isDevice | isDevice | isDevice
  · obtain ⟨color, rfl, named⟩ := exists_color_of_follow (Or.inl isColor) followed
    rw [Conversion.ink_setInk] at isPattern
    exact named name underlying isPattern
  · obtain ⟨color, rfl, named⟩ := exists_color_of_follow (Or.inr isColor) followed
    rw [Conversion.ink_setInk] at isPattern
    exact named name underlying isPattern
  all_goals
    have setsSlot : (Operator.ofKeyword operation.keyword).slot? = some slot := by
      rw [isDevice]
      rfl
    obtain ⟨ink, changed, rfl⟩ := exists_inkAfter setsSlot followed
    rw [Conversion.ink_setInk] at isPattern
    simp only [inkAfter, isDevice] at changed
    exact absurd isPattern (ne_pattern_of_deviceInk changed name underlying)

/-- After an operation of a conversion was followed, all spaces are gray, if the pattern spaces that
it names are settled. -/
theorem inGray_follow {noted : List String} (inGray : gray.InGray)
    (step : GrayStep noted original operation moved)
    (settled : ∀ name, operation.Selects name → scope.HoldsSettled name)
    (followed : gray.follow scope operation = .ok after) : after.InGray := by
  cases step with
  | save _ isSave =>
      obtain rfl : gray.save = after := by simpa [follow, apply, isSave] using followed
      exact Related.save inGray
  | restore _ isRestore =>
      obtain rfl : gray.restore = after := by simpa [follow, apply, isRestore] using followed
      exact Related.restore inGray
  | use _ isUse =>
      rcases isUse with isUse | isUse | isUse <;>
        obtain rfl : gray = after := by simpa [follow, apply, isUse, Operator.slot?] using followed
      all_goals exact inGray
  | image image =>
      obtain rfl : gray = after := Except.ok.inj followed
      exact inGray
  | plainSpace _ slot ink isSpace operands plain =>
      rw [follow_deviceGray gray isSpace operands] at followed
      obtain rfl := Except.ok.inj followed
      exact Related.setInk inGray slot .deviceGray
  | patternSpace _ slot ink name isSpace named ownName pattern unset =>
      obtain ⟨space, known, isGray⟩ : ∃ space : ColorSpace Float32 Float,
          ((name = "Pattern" ∧ space = .pattern) ∨
            (ColorSpace.ofName? name : Option (ColorSpace Float32 Float)) = none ∧
              scope.colorSpace name = .ok space) ∧ space.IsGray := by
        rcases ownName with atPattern | ⟨own, _⟩
        · exact ⟨.pattern, Or.inl ⟨atPattern, rfl⟩, .pattern⟩
        · rcases (settled name ⟨⟨slot, isSpace⟩, named, own⟩).colorSpace with found | found
          · exact ⟨_, Or.inr ⟨own, found⟩, .pattern⟩
          · exact ⟨_, Or.inr ⟨own, found⟩, .patternOver⟩
      rw [follow_space gray isSpace (namedSpace_of_ownName named known)] at followed
      obtain rfl := Except.ok.inj followed
      exact Related.setInk inGray slot isGray
  | deviceLevel _ slot ink operand level isGray operands number plain =>
      rw [follow_deviceLevel gray isGray operands number] at followed
      obtain rfl := Except.ok.inj followed
      exact Related.setInk inGray slot .deviceGray
  | level _ slot color operand level isColor operands number plain =>
      obtain ⟨color, rfl, _⟩ := exists_color_of_follow isColor followed
      exact Related.setInk inGray slot (inGray.current slot)
  | pattern _ slot name isColor operands pattern =>
      obtain ⟨color, rfl, _⟩ := exists_color_of_follow (Or.inr isColor) followed
      exact Related.setInk inGray slot (inGray.current slot)
  | patternOver _ slot name values operand level isColor operands number pattern =>
      obtain ⟨color, rfl, _⟩ := exists_color_of_follow (Or.inr isColor) followed
      exact Related.setInk inGray slot (inGray.current slot)

end GraphicsState

namespace Detection
open Change

variable {options : Options} {scope : Scope} {operation : Operation}

/-- The shading that a conversion left is not colored. -/
theorem LeftShading.isColored_ne {shading : Object} (left : LeftShading shading)
    (document : Document) : Shading.isColored document shading ≠ .ok true := by
  obtain ⟨original, before, after, converted⟩ := left
  exact Shading.isColored_toGray converted

/-- An image that is as a conversion leaves it is not colored. -/
theorem LeftImage.imageColored_ne {document : Document} {image : Stream}
    (nonnegative : Scalar.atMost 0.0 options.colorTolerance = true)
    (avoids : AvoidsJpx options document image.entries) (left : LeftImage options document image) :
    imageColored options document image ≠ .ok true := by
  cases left with
  | changed original job after converted =>
      exact imageColored_of_isGray nonnegative avoids fun _ found =>
        isGray_of_convertImage converted found
  | kept job after sameDocument sameOptions keeps =>
      subst sameDocument
      exact imageColored_of_kept avoids sameOptions keeps

/-- The entries of an inline image that do not tell its length are read back. -/
theorem find?_of_sameUpToLength {original again : Stream}
    (same : (Content.imageOperation original).SameUpToLength (Content.imageOperation again))
    {key : Bytes} (notLength : key ≠ Bytes.ascii "Length") (notShort : key ≠ Bytes.ascii "L") :
    again.entries.find? key = original.entries.find? key := by
  generalize isOriginal : Content.imageOperation original = first at same
  generalize isAgain : Content.imageOperation again = second at same
  cases same with
  | ordinary _ notImage => subst isOriginal; cases notImage
  | image _ _ sameData sameEntries =>
      simp only [Content.imageOperation, Stream.toObject, Operation.mk.injEq, List.cons.injEq,
        Object.stream.injEq, and_true, true_and] at isOriginal isAgain
      rw [isOriginal.1, isAgain.1]
      exact sameEntries key notLength notShort

/-- An inline image that is as a conversion leaves it is not colored. -/
theorem LeftInlineImage.inlineImageColored_ne {image : Stream}
    (nonnegative : Scalar.atMost 0.0 options.colorTolerance = true)
    (avoids : AvoidsJpx options scope.document image.entries)
    (left : LeftInlineImage options scope image) :
    inlineImageColored options scope image ≠ .ok true := by
  cases left with
  | changed original product scene after converted differs same =>
      have sameSpace : image.entries.get? "CS" = product.entries.get? "CS" :=
        find?_of_sameUpToLength same (by decide) (by decide)
      exact inlineImageColored_of_changed nonnegative avoids converted differs sameSpace
  | kept scene after sameScope sameOptions keeps =>
      subst sameScope
      exact inlineImageColored_of_kept nonnegative avoids sameOptions keeps

/-- Whether a search does not find color in content that is left in gray. -/
def Spares (detect : StreamDetection) (isLeft : Bytes → Scope → Prop) (options : Options) : Prop :=
  ∀ location content scope detector, detector.options = options → isLeft content scope →
    ((detect location content scope).outcome detector).1 ≠ .ok true

variable {detect : StreamDetection} {isLeft : Bytes → Scope → Prop} {detector : Detector}

/-- A pattern that is as a conversion leaves it is not colored. -/
theorem judgePattern_ne (spares : Spares detect isLeft options)
    (sameOptions : detector.options = options) {name : String}
    (left : ∀ pattern, scope.pattern name = .ok pattern → LeftPattern isLeft scope pattern) :
    judgePattern detect scope name detector ≠ .ok true := by
  intro colored
  obtain ⟨pattern, found, colored⟩ := Outcome.bind_eq_ok.1 colored
  cases left pattern found with
  | shading entries shading location leftShading => exact leftShading.isColored_ne _ colored
  | uncolored cell paintType keepsColors => simp [keepsColors, pure, Except.pure] at colored
  | colored cell paintType leftCell =>
      dsimp only at colored
      split at colored
      · simp only [Outcome.bind_eq_ok] at colored
        obtain ⟨content, atContent, own, atOwn, colored⟩ := colored
        exact spares _ _ _ _ sameOptions (leftCell content own atContent atOwn) colored
      · cases colored

/-- An external object that is as a conversion leaves it is not colored. -/
theorem judgeXObject_ne (nonnegative : Scalar.atMost 0.0 options.colorTolerance = true)
    (spares : Spares detect isLeft options) (sameOptions : detector.options = options)
    {name : String}
    (left : ∀ xobject, scope.xobject name = .ok xobject → LeftXObject isLeft options scope xobject) :
    judgeXObject detect scope name detector ≠ .ok true := by
  intro colored
  obtain ⟨xobject, found, colored⟩ := Outcome.bind_eq_ok.1 colored
  cases left xobject found with
  | image image leftImage avoids =>
      rw [sameOptions] at colored
      exact leftImage.imageColored_ne nonnegative avoids colored
  | form form leftForm =>
      simp only [Outcome.bind_eq_ok] at colored
      obtain ⟨content, atContent, own, atOwn, colored⟩ := colored
      exact spares _ _ _ _ sameOptions (leftForm content own atContent atOwn) colored
  | other stream => cases colored

/-- External objects that are as a conversion leaves them are not colored. -/
theorem judgeXObjects_ne (nonnegative : Scalar.atMost 0.0 options.colorTolerance = true)
    (spares : Spares detect isLeft options) (sameOptions : detector.options = options)
    {operands : List Object}
    (left : ∀ operand name xobject, operand ∈ operands → operand.text? = some name →
      scope.xobject name = .ok xobject → LeftXObject isLeft options scope xobject) :
    judgeXObjects detect scope operands detector ≠ .ok true := by
  induction operands with
  | nil => exact nofun
  | cons operand rest inductionHypothesis =>
      intro colored
      simp only [judgeXObjects, Outcome.bind_eq_ok] at colored
      obtain ⟨name, named, visible, judged, colored⟩ := colored
      cases visible with
      | false =>
          exact inductionHypothesis (fun other name xobject inRest => left other name xobject (by simp [inRest]))
            colored
      | true =>
          exact judgeXObject_ne nonnegative spares sameOptions
            (fun xobject => left operand name xobject (by simp) (Operands.nameOf_eq_ok.1 named)) judged

/-- An ink in a gray space is not colored, if its pattern is as a conversion leaves it. -/
theorem judgeInk_ne (nonnegative : Scalar.atMost 0.0 options.colorTolerance = true)
    (spares : Spares detect isLeft options) (sameOptions : detector.options = options) {ink : Ink}
    (isGray : ink.space.IsGray)
    (left : ∀ name underlying pattern, ink.color = .pattern name underlying →
      scope.pattern name = .ok pattern → LeftPattern isLeft scope pattern) :
    judgeInk detect scope ink detector ≠ .ok true := by
  intro colored
  obtain ⟨space, color⟩ := ink
  cases color with
  | components values => cases colored
  | pattern name underlying =>
      have patternGray := judgePattern_ne spares sameOptions fun pattern =>
        left name underlying pattern rfl
      simp only [judgeInk] at colored
      split at colored
      · rename_i values space
        cases isGray
        obtain ⟨color, seen, colored⟩ := Outcome.bind_eq_ok.1 colored
        obtain ⟨level, rfl⟩ := ColorSpace.eq_neutral_of_deviceGray seen
        rw [sameOptions, Rgb.isColored_neutral nonnegative] at colored
        exact patternGray colored
      · exact patternGray colored

/-- An operation is not colored, if what it names is as a conversion leaves it. -/
theorem judgePainting_ne (nonnegative : Scalar.atMost 0.0 options.colorTolerance = true)
    (spares : Spares detect isLeft options) (sameOptions : detector.options = options)
    {before state : GraphicsState} (followed : before.follow scope operation = .ok state)
    (inGray : state.InGray) (left : LeftOperation isLeft options scope operation) :
    judgePainting detect scope operation state detector ≠ .ok true := by
  have inkLeft (slot : Slot) (sets : operation.SetsColor slot) :
      judgeInk detect scope (state.ink slot) detector ≠ .ok true := by
    refine judgeInk_ne nonnegative spares sameOptions (inGray.current slot) ?_
    intro name underlying pattern isPattern found
    obtain ⟨isColor, named⟩ := GraphicsState.named_of_follow followed sets isPattern
    exact left.patterns slot name pattern isColor named found
  unfold judgePainting
  cases isOperator : Operator.ofKeyword operation.keyword with
  | saveState | restoreState | setSpace | other =>
      intro colored
      cases colored
  | setColor slot | setPatternColor slot | setGray slot | setRgb slot | setCmyk slot =>
      exact inkLeft slot (by simp [Operation.SetsColor, isOperator])
  | paintShading =>
      intro colored
      obtain ⟨name, named, colored⟩ := Outcome.bind_eq_ok.1 colored
      obtain ⟨shading, found, colored⟩ := Outcome.bind_eq_ok.1 colored
      exact (left.shadings name shading isOperator named found).isColored_ne _ colored
  | inlineImage =>
      intro colored
      obtain ⟨image, atImage, colored⟩ := Outcome.bind_eq_ok.1 colored
      obtain ⟨leftImage, avoids⟩ := left.images image isOperator atImage
      rw [sameOptions] at colored
      exact leftImage.inlineImageColored_ne nonnegative avoids colored
  | paintXObject =>
      dsimp only
      split
      · intro colored
        cases colored
      · exact judgeXObjects_ne nonnegative spares sameOptions fun operand name xobject =>
          left.xobjects operand name xobject isOperator

/-- Operations of a conversion are not colored, if what they name is as a conversion leaves it. -/
theorem judgePaintings_ne (nonnegative : Scalar.atMost 0.0 options.colorTolerance = true)
    (spares : Spares detect isLeft options) (sameOptions : detector.options = options)
    {operations : List Operation} {original moved state : GraphicsState}
    (run : GrayRun original operations moved) (inGray : state.InGray)
    (left : ∀ operation ∈ operations, LeftOperation isLeft options scope operation) :
    judgePaintings detect scope operations state detector ≠ .ok true := by
  induction run generalizing state with
  | done => exact nofun
  | step first rest inductionHypothesis =>
      intro colored
      simp only [judgePaintings, Outcome.bind_eq_ok] at colored
      obtain ⟨next, followed, visible, judged, colored⟩ := colored
      have leftFirst := left _ (List.mem_cons_self ..)
      have inGrayNext := GraphicsState.inGray_follow inGray first leftFirst.spaces followed
      cases visible with
      | false =>
          exact inductionHypothesis inGrayNext (fun operation inRest => left operation (by simp [inRest]))
            colored
      | true =>
          exact judgePainting_ne nonnegative spares sameOptions followed inGrayNext leftFirst judged

/-- A search does not find color in content that is left in gray. -/
theorem spares_detectStream (nonnegative : Scalar.atMost 0.0 options.colorTolerance = true)
    (depth : Nat) : Spares (detectStream depth) (LeftContent options depth) options := by
  induction depth with
  | zero => exact fun _ _ _ _ _ _ => nofun
  | succ depth inductionHypothesis =>
      intro location content scope detector sameOptions left colored
      have tolerance : Scalar.atMost 0.0 detector.options.colorTolerance = true :=
        sameOptions ▸ nonnegative
      obtain ⟨operations, read⟩ := exists_read_of_detectStream colored
      obtain ⟨⟨moved, run⟩, leftOperations⟩ := left operations read
      rw [outcome_detectStream tolerance read run] at colored
      obtain ⟨trail, _, colored⟩ := Outcome.bind_eq_ok.1 colored
      have entered : { detector with trail := trail }.options = options := sameOptions
      exact judgePaintings_ne nonnegative inductionHypothesis entered run
        GraphicsState.inGray_default leftOperations colored

end Detection

end Monochrome
