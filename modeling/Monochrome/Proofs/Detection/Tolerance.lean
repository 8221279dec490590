import Monochrome.Proofs.Binary.Order
import Monochrome.Proofs.Detection.Afresh

/-!
# Searches with different tolerances

Whatever its tolerance is, a search goes through the same things in the same order until it finds color
or fails.  A greater tolerance makes nothing visible that was not visible before.  So of two searches the
one with the lesser tolerance finds color no later than the other one, and until then both say the same.
-/

namespace Monochrome

variable {strict lenient : Float32}

/-- A color that is visible with a tolerance is visible with a lesser one. -/
theorem Rgb.isColored_of_atMost (atMost : Scalar.atMost strict lenient = true) {color : Rgb Float32}
    (visible : color.isColored lenient = true) : color.isColored strict = true := by
  obtain ⟨difference, isDifference, exceeds⟩ := List.any_eq_true.1 visible
  exact List.any_eq_true.2 ⟨difference, isDifference, less_of_atMost atMost exceeds⟩

/-- An image that is colored with a tolerance is colored with a lesser one. -/
theorem RgbImage.isColored_of_atMost (atMost : Scalar.atMost strict lenient = true)
    {image : RgbImage Float32} (visible : image.isColored lenient = true) :
    image.isColored strict = true := by
  obtain ⟨pixel, isPixel, seen⟩ := List.any_eq_true.1 visible
  exact List.any_eq_true.2 ⟨pixel, isPixel, Rgb.isColored_of_atMost atMost seen⟩

/-- The detector with another tolerance. -/
def Detector.withTolerance (detector : Detector) (tolerance : Float32) : Detector :=
  { detector with options := { detector.options with colorTolerance := tolerance } }

namespace Detection
open Change

/-- Whether one search finds color, or else both say the same. -/
def IsStricter (first second : Outcome Bool) : Prop :=
  first = .ok true ∨ second = first

section IsStricter

variable {α : Type} {first second third fourth : Outcome Bool}

/-- A search is as strict as itself. -/
theorem IsStricter.refl (answer : Outcome Bool) : IsStricter answer answer :=
  Or.inr rfl

/-- What is visible to a stricter search is found by it. -/
theorem isStricter_ok {seen noticed : Bool} (finds : noticed = true → seen = true) :
    IsStricter (.ok seen) (.ok noticed) := by
  cases noticed with
  | true => exact Or.inl (congrArg Except.ok (finds rfl))
  | false => cases seen <;> simp [IsStricter]

/-- After a reading that both have in common, the one is stricter if what follows is. -/
theorem IsStricter.bind {reading : Outcome α} {next other : α → Outcome Bool}
    (rest : ∀ found, IsStricter (next found) (other found)) :
    IsStricter (reading >>= next) (reading >>= other) := by
  cases reading with
  | ok found => exact rest found
  | error fault => exact .refl _

/-- A search that goes on where nothing was found is stricter if both of its parts are. -/
theorem IsStricter.orElse (early : IsStricter first second) (late : IsStricter third fourth) :
    IsStricter (first >>= fun found => if found then return true else third)
      (second >>= fun found => if found then return true else fourth) := by
  rcases early with rfl | rfl
  · exact Or.inl rfl
  · refine .bind fun found => ?_
    cases found
    · exact late
    · exact .refl _

end IsStricter

/-- Whether one search of streams is stricter than the same one with another tolerance. -/
def StreamDetection.IsStricterWith (detect : StreamDetection) (strict lenient : Float32) : Prop :=
  ∀ (detector : Detector) (location : Option ObjectId) (content : Bytes) (scope : Scope),
    IsStricter ((detect location content scope).outcome (detector.withTolerance strict)).1
      ((detect location content scope).outcome (detector.withTolerance lenient)).1

/-- Samples are found colored by a stricter search, or judged alike. -/
theorem isStricter_verdictColored (atMost : Scalar.atMost strict lenient = true) (options : Options)
    (space : ColorSpace Float32 Float) (verdict : ImageVerdict)
    (samples : Outcome (SampleImage Float32)) :
    IsStricter (verdictColored { options with colorTolerance := strict } space verdict samples)
      (verdictColored { options with colorTolerance := lenient } space verdict samples) := by
  cases verdict with
  | gray | colored => exact .refl _
  | byPixels =>
      refine .bind fun samples => .bind fun colors => ?_
      exact isStricter_ok (RgbImage.isColored_of_atMost atMost)

/-- An image object is found colored by a stricter search, or judged alike. -/
theorem isStricter_imageColored (atMost : Scalar.atMost strict lenient = true) (options : Options)
    (document : Document) (image : Stream) :
    IsStricter (imageColored { options with colorTolerance := strict } document image)
      (imageColored { options with colorTolerance := lenient } document image) := by
  unfold imageColored
  refine .bind fun isMask => ?_
  split
  · exact .refl _
  · refine .bind fun space => ?_
    exact .bind fun verdict => isStricter_verdictColored atMost options space verdict _

/-- An inline image is found colored by a stricter search, or judged alike. -/
theorem isStricter_inlineImageColored (atMost : Scalar.atMost strict lenient = true)
    (options : Options) (scope : Scope) (image : Stream) :
    IsStricter (inlineImageColored { options with colorTolerance := strict } scope image)
      (inlineImageColored { options with colorTolerance := lenient } scope image) := by
  unfold inlineImageColored
  split
  · exact .refl _
  · refine .bind fun space => ?_
    exact .bind fun verdict => isStricter_verdictColored atMost options space verdict _

section Judgement

variable {detect : StreamDetection} {scope : Scope} {detector : Detector}

/-- The pattern with a name is found colored by a stricter search, or judged alike. -/
theorem isStricter_judgePattern (stricter : detect.IsStricterWith strict lenient) (name : String) :
    IsStricter (judgePattern detect scope name (detector.withTolerance strict))
      (judgePattern detect scope name (detector.withTolerance lenient)) := by
  refine .bind fun pattern => ?_
  cases pattern with
  | tiling cell paintType =>
      dsimp only
      split
      · exact .bind fun content => .bind fun own => stricter detector _ _ _
      · exact .refl _
  | shading entries shading location => exact .refl _

/-- The external object with a name is found colored by a stricter search, or judged alike. -/
theorem isStricter_judgeXObject (atMost : Scalar.atMost strict lenient = true)
    (stricter : detect.IsStricterWith strict lenient) (name : String) :
    IsStricter (judgeXObject detect scope name (detector.withTolerance strict))
      (judgeXObject detect scope name (detector.withTolerance lenient)) := by
  refine .bind fun xobject => ?_
  cases xobject with
  | image image => exact isStricter_imageColored atMost detector.options scope.document image
  | form form => exact .bind fun content => .bind fun own => stricter detector _ _ _
  | other stream => exact .refl _

/-- One of several external objects is found colored by a stricter search, or they are judged
alike. -/
theorem isStricter_judgeXObjects (atMost : Scalar.atMost strict lenient = true)
    (stricter : detect.IsStricterWith strict lenient) (operands : List Object) :
    IsStricter (judgeXObjects detect scope operands (detector.withTolerance strict))
      (judgeXObjects detect scope operands (detector.withTolerance lenient)) := by
  induction operands with
  | nil => exact .refl _
  | cons operand rest inductionHypothesis =>
      refine .bind fun name => ?_
      exact (isStricter_judgeXObject atMost stricter name).orElse inductionHypothesis

/-- A color is found visible by a stricter search, or judged alike. -/
theorem isStricter_judgeColor (atMost : Scalar.atMost strict lenient = true)
    (stricter : detect.IsStricterWith strict lenient) (ink : Ink) :
    IsStricter (judgeColor detect scope ink (detector.withTolerance strict))
      (judgeColor detect scope ink (detector.withTolerance lenient)) := by
  obtain ⟨space, color⟩ := ink
  have visible (color : Rgb Float32) :
      IsStricter (.ok (color.isColored strict)) (.ok (color.isColored lenient)) :=
    isStricter_ok (Rgb.isColored_of_atMost atMost)
  cases color with
  | components values => exact .bind fun color => visible color
  | pattern name underlying =>
      have pattern : IsStricter (judgePattern detect scope name (detector.withTolerance strict))
          (judgePattern detect scope name (detector.withTolerance lenient)) :=
        isStricter_judgePattern stricter name
      cases underlying with
      | none => exact pattern
      | some values =>
          cases space with
          | patternOver space => exact .bind fun color => (visible color).orElse pattern
          | _ => exact pattern

/-- An operation is found colored by a stricter search, or judged alike. -/
theorem isStricter_judgeOperation (atMost : Scalar.atMost strict lenient = true)
    (stricter : detect.IsStricterWith strict lenient) (operation : Operation)
    (state : GraphicsState) :
    IsStricter (judgeOperation detect scope operation state (detector.withTolerance strict))
      (judgeOperation detect scope operation state (detector.withTolerance lenient)) := by
  unfold judgeOperation judgePainting
  cases Operator.ofKeyword operation.keyword with
  | saveState | restoreState | setSpace | other | paintShading => exact .refl _
  | setColor slot | setPatternColor slot | setGray slot | setRgb slot | setCmyk slot =>
      exact isStricter_judgeColor atMost stricter (state.ink slot)
  | inlineImage =>
      exact .bind fun image => isStricter_inlineImageColored atMost detector.options scope image
  | paintXObject =>
      dsimp only
      split
      · exact .refl _
      · exact isStricter_judgeXObjects atMost stricter operation.operands

/-- Operations are found colored by a stricter search, or judged alike. -/
theorem isStricter_judgeOperations (atMost : Scalar.atMost strict lenient = true)
    (stricter : detect.IsStricterWith strict lenient) (detector : Detector)
    (operations : List Operation) (state : GraphicsState) :
    IsStricter (judgeOperations detect scope operations state (detector.withTolerance strict))
      (judgeOperations detect scope operations state (detector.withTolerance lenient)) := by
  induction operations generalizing state with
  | nil => exact .refl _
  | cons operation rest inductionHypothesis =>
      refine .bind fun state => ?_
      exact (isStricter_judgeOperation atMost stricter operation state).orElse
        (inductionHypothesis state)

end Judgement

/-- A search of streams with a lesser tolerance is stricter, however deep it goes. -/
theorem isStricterWith_detectStream (atMost : Scalar.atMost strict lenient = true) (depth : Nat) :
    (detectStream depth).IsStricterWith strict lenient := by
  induction depth with
  | zero => exact fun _ _ _ _ => .refl _
  | succ depth inductionHypothesis =>
      intro detector location content scope
      rw [detectStream, outcome_inside, outcome_inside]
      refine .bind fun trail => ?_
      rw [outcome_through, outcome_through, outcome_lift_bind, outcome_lift_bind]
      cases Content.read content with
      | error fault => exact .refl _
      | ok operations =>
          dsimp only
          have fresh (detector : Detector) : Scan.Recalls (detectStream depth) scope
              ⟨detector, default, Table.empty, Table.empty, Table.empty⟩ :=
            ⟨by simp, by simp, by simp⟩
          rw [outcome_anyColored (restores_detectStream depth) (fresh _),
            outcome_anyColored (restores_detectStream depth) (fresh _)]
          exact isStricter_judgeOperations atMost inductionHypothesis
            { detector with trail := trail } operations default

/-- Content that sets a pale color. -/
def paleContent : Bytes :=
  Bytes.ascii "0.5 0.6 0.5 rg"

/-- A document without objects, and resources without entries. -/
def emptyScope : Scope :=
  ⟨⟨Table.empty, Table.empty, 0⟩, .direct Table.empty⟩

-- The lesser tolerance sees the pale color, the greater one does not.
example :
    let finds := fun tolerance =>
      ((containsColor paleContent emptyScope).outcome
        (({} : Detector).withTolerance tolerance)).1.toOption
    finds 0.0625 = some true ∧ finds 0.25 = some false := by
  decide +kernel

end Detection
end Monochrome
