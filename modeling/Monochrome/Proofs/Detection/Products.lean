import Monochrome.Conversion.Image
import Monochrome.Detection.Stream
import Monochrome.Proofs.Change
import Monochrome.Proofs.Color
import Monochrome.Proofs.ColorSpace.Gray

/-!
# What a conversion leaves is not colored

A shading and an image that a conversion leaves have a gray color space, in whatever document they
are read.  A detector judges them by their color space or by their pixels, and neither is colored.
An image that a conversion keeps is not colored in the document in which it was kept.
-/

namespace Monochrome

/-- A value that was set is found under its key, and the other keys are as before. -/
@[simp] theorem Dictionary.get?_set (dictionary : Dictionary) (key other : String)
    (value : Object) : (dictionary.set key value).get? other =
      if Bytes.ascii key = Bytes.ascii other then some value else dictionary.get? other :=
  Table.find?_insert _ _ _ _

namespace Shading

variable {shading gray : Object} {before after document : Document}

/-- A shading in gray stores a gray space. -/
theorem exists_entries_of_toGray (converted : toGray shading before = .ok gray after) :
    ∃ dictionary space, entries gray = .ok dictionary ∧
      dictionary.get? "ColorSpace" = some space ∧ space.StoresGray := by
  simp only [toGray, Change.bind_eq_ok, Change.get_eq_ok, Change.lift_eq_ok,
    Change.pure_eq_ok] at converted
  obtain ⟨_, _, ⟨rfl, rfl⟩, ⟨space, background⟩, _, ⟨parts, rfl⟩, object, _, stored, rfl, rfl⟩ :=
    converted
  simp only [grayParts, Outcome.bind_eq_ok, Outcome.pure_eq_ok] at parts
  obtain ⟨original, read, gray, isGray, dictionary, isShading, _, _, _, _, same⟩ := parts
  obtain ⟨rfl, rfl⟩ := Prod.mk.inj same
  have storesGray := (ColorSpace.isGray_of_toGray isGray).storesGray_toObject before
  obtain ⟨rfl, _⟩ := Change.always_eq_ok.1 stored
  have apart : Bytes.ascii "Background" ≠ Bytes.ascii "ColorSpace" := by decide
  cases shading with
  | dictionary entries | stream entries =>
      refine ⟨_, _, rfl, ?_, storesGray⟩
      split <;> simp [apart]
  | _ => simp [Shading.entries, Object.entries?] at isShading

/-- A shading in gray is read with a gray space in every document. -/
theorem isGray_of_toGray {space : ColorSpace Float32 Float}
    (converted : toGray shading before = .ok gray after)
    (read : colorSpace document gray = .ok space) : space.IsGray := by
  obtain ⟨dictionary, object, isShading, found, stores⟩ := exists_entries_of_toGray converted
  simp only [colorSpace, isShading, Outcome.bind_eq_ok, Except.ok.injEq, exists_eq_left', found]
    at read
  exact ColorSpace.isGray_of_read stores read

/-- A shading in gray is not colored, in whatever document it is judged. -/
theorem isColored_toGray (converted : toGray shading before = .ok gray after) :
    isColored document gray ≠ .ok true := by
  intro colored
  simp only [isColored, Outcome.bind_eq_ok] at colored
  obtain ⟨space, read, colored⟩ := colored
  cases isGray_of_toGray converted read <;>
    simp [ColorSpace.componentCount, pure, Except.pure, throw, throwThe, MonadExceptOf.throw] at colored

end Shading

namespace SampleImage

variable {image : SampleImage Float32} {space : ColorSpace Float32 Float}

/-- Pixels of a space that shows gray are neutral. -/
theorem neutral_of_pixelColors {intervals : List (Float32 × Float32)} {count : Nat}
    {samples : List Nat} {colors : List (Rgb Float32)} (shows : space.ShowsGray)
    (seen : image.pixelColors space intervals count samples = .ok colors) :
    ∀ color ∈ colors, ∃ level, color = .neutral level := by
  induction count generalizing samples colors with
  | zero =>
      obtain rfl := Except.ok.inj seen
      simp
  | succ count inductionHypothesis =>
      simp only [pixelColors, Outcome.bind_eq_ok, Outcome.pure_eq_ok] at seen
      obtain ⟨color, seen, others, later, rfl⟩ := seen
      intro other isPixel
      rcases List.mem_cons.1 isPixel with rfl | isLater
      · exact shows.eq_neutral seen
      · exact inductionHypothesis later other isLater

/-- Rows of pixels of a space that shows gray are neutral. -/
theorem neutral_of_rowColors {intervals : List (Float32 × Float32)} {count : Nat} {data : Bytes}
    {colors : List (Rgb Float32)} (shows : space.ShowsGray)
    (seen : image.rowColors space intervals count data = .ok colors) :
    ∀ color ∈ colors, ∃ level, color = .neutral level := by
  induction count generalizing data colors with
  | zero =>
      obtain rfl := Except.ok.inj seen
      simp
  | succ count inductionHypothesis =>
      simp only [rowColors, Outcome.bind_eq_ok, Outcome.pure_eq_ok] at seen
      obtain ⟨_, _, row, atRow, others, later, rfl⟩ := seen
      intro other isPixel
      rcases List.mem_append.1 isPixel with isFirst | isLater
      · exact neutral_of_pixelColors shows atRow other isFirst
      · exact inductionHypothesis later other isLater

/-- The pixels of an image are neutral in a space that shows gray and has as many components as the
image. -/
theorem neutral_of_toRgb {colors : RgbImage Float32} (shows : space.ShowsGray)
    (fits : image.components = space.componentCount) (seen : image.toRgb space = .ok colors) :
    ∀ color ∈ colors.pixels, ∃ level, color = .neutral level := by
  simp only [toRgb, readingSpace, fits, if_true, Outcome.bind_eq_ok, Outcome.pure_eq_ok,
    Except.ok.injEq, exists_eq_left'] at seen
  obtain ⟨pixels, rows, rfl⟩ := seen
  exact neutral_of_rowColors shows rows

/-- An image in a gray space that has as many components as the image is not colored. -/
theorem isColored_toRgb {colors : RgbImage Float32} {tolerance : Float32}
    (nonnegative : Scalar.atMost 0.0 tolerance = true) (isGray : space.IsGray)
    (fits : image.components = space.componentCount) (seen : image.toRgb space = .ok colors) :
    colors.isColored tolerance = false := by
  rw [RgbImage.isColored, List.any_eq_false]
  intro color isPixel
  obtain ⟨level, rfl⟩ := neutral_of_toRgb isGray.showsGray fits seen color isPixel
  simp [Rgb.isColored_neutral nonnegative]

/-- Decoded data has the number of components that it was decoded for. -/
theorem components_of_decodeStream {document : Document} {stream : Stream}
    {width height components bits : Nat}
    (decoded : decodeStream document stream width height components bits = .ok image) :
    image.components = components := by
  simp only [decodeStream, Outcome.bind_eq_ok] at decoded
  obtain ⟨data, _, decode, _, decoded⟩ := decoded
  split at decoded
  · exact (Outcome.pure_eq_ok.1 decoded) ▸ rfl
  · cases decoded
  · cases decoded

end SampleImage

namespace Detection

variable {options : Options} {document : Document} {entries : Dictionary}
variable {space : ColorSpace Float32 Float}

/-- Whether the data of an image is not in the one codec that a detector takes for colored. -/
def AvoidsJpx (options : Options) (document : Document) (entries : Dictionary) : Prop :=
  ∀ encoder, ImageEncoder.read document entries options.jpegQuality = .ok encoder →
    encoder.uses .jpx = false

section Verdict

variable {trustRuns : Bool} {verdict : ImageVerdict}

/-- An image in another codec is gray by the number of its components, or is judged by its encoder,
and else by its pixels. -/
theorem imageVerdict_of_avoidsJpx (avoids : AvoidsJpx options document entries)
    (judged : imageVerdict options document entries space trustRuns = .ok verdict) :
    verdict = .gray ∨
      (space.componentCount = 1 → ∃ base last palette, space = .indexed base last palette) ∧
        ∃ encoder, ImageEncoder.read document entries options.jpegQuality = .ok encoder ∧
          verdict = if encoder.isGrayOnly || (trustRuns && encoder.uses .runLength) then .gray
            else .byPixels := by
  unfold imageVerdict at judged
  dsimp only at judged
  split_ifs at judged with single
  · exact Or.inl (Outcome.pure_eq_ok.1 judged).symm
  · obtain ⟨encoder, read, judged⟩ := Outcome.bind_eq_ok.1 judged
    simp only [avoids encoder read, Bool.false_eq_true, if_false] at judged
    refine Or.inr ⟨fun one => ?_, encoder, read, ?_⟩
    · cases space <;> simp [one] at single ⊢
    · split_ifs at judged ⊢ <;> exact (Outcome.pure_eq_ok.1 judged).symm

/-- An image in a gray space is not colored. -/
theorem verdictColored_of_isGray {samples : Outcome (SampleImage Float32)}
    (nonnegative : Scalar.atMost 0.0 options.colorTolerance = true) (isGray : space.IsGray)
    (avoids : AvoidsJpx options document entries)
    (judged : imageVerdict options document entries space trustRuns = .ok verdict)
    (fits : ∀ image, samples = .ok image → image.components = space.componentCount) :
    verdictColored options space verdict samples ≠ .ok true := by
  intro colored
  cases verdict with
  | gray => cases colored
  | colored =>
      rcases imageVerdict_of_avoidsJpx avoids judged with gray | ⟨_, encoder, _, judged⟩
      · cases gray
      · split_ifs at judged
  | byPixels =>
      simp only [verdictColored, Outcome.bind_eq_ok, Outcome.pure_eq_ok] at colored
      obtain ⟨image, atImage, colors, seen, colored⟩ := colored
      rw [SampleImage.isColored_toRgb nonnegative isGray (fits image atImage) seen] at colored
      cases colored

/-- An image that a conversion keeps is gray. -/
theorem eq_gray_of_keep {leaveRuns : Bool} (avoids : AvoidsJpx options document entries)
    (trusts : leaveRuns = true → trustRuns = true)
    (kept : Conversion.imageTask options document entries space leaveRuns = .ok .keep)
    (judged : imageVerdict options document entries space trustRuns = .ok verdict) :
    verdict = .gray := by
  rcases imageVerdict_of_avoidsJpx avoids judged with gray | ⟨single, encoder, read, rfl⟩
  · exact gray
  · apply if_pos
    unfold Conversion.imageTask at kept
    split at kept
    · obtain ⟨_, _, kept⟩ := Outcome.bind_eq_ok.1 kept
      cases kept
    · rename_i notPalette
      have several : space.componentCount ≠ 1 := by
        intro one
        obtain ⟨base, last, palette, isPalette⟩ := single one
        exact notPalette base last palette isPalette
      simp only [if_neg several, read, avoids encoder read, Outcome.bind_eq_ok, Except.ok.injEq,
        exists_eq_left', Bool.false_eq_true, if_false] at kept
      split_ifs at kept with isGrayOnly hasRuns
      · simp [(Bool.and_eq_true_iff.1 isGrayOnly).2]
      · obtain ⟨leaves, uses⟩ := Bool.and_eq_true_iff.1 hasRuns
        simp [trusts leaves, uses]
      · cases kept

end Verdict

/-- The color space that a conversion gives to a palette is gray. -/
theorem isGray_of_imageTask {partner : ColorSpace Float32 Float} {leaveRuns : Bool}
    (replaced : Conversion.imageTask options document entries space leaveRuns =
      .ok (.replaceSpace partner)) : partner.IsGray := by
  unfold Conversion.imageTask at replaced
  split at replaced
  · obtain ⟨gray, converted, same⟩ := Outcome.bind_eq_ok.1 replaced
    obtain rfl := Conversion.ImageTask.replaceSpace.inj (Outcome.pure_eq_ok.1 same)
    exact ColorSpace.isGray_of_toGray converted
  · split_ifs at replaced
    · cases replaced
    · obtain ⟨encoder, _, replaced⟩ := Outcome.bind_eq_ok.1 replaced
      split_ifs at replaced <;> cases replaced

section Image

variable {image gray : Stream} {job after : Job}

/-- The samples of an image have as many components as its color space. -/
theorem components_of_samples {samples : SampleImage Float32}
    (found : ImageObject.colorSpace document image = .ok space)
    (read : ImageObject.samples document image = .ok samples) :
    samples.components = space.componentCount := by
  simp only [ImageObject.samples, found, Outcome.bind_eq_ok, Except.ok.injEq, exists_eq_left']
    at read
  obtain ⟨_, _, _, _, _, _, decoded⟩ := read
  exact SampleImage.components_of_decodeStream decoded

/-- An image in a gray space is not colored. -/
theorem imageColored_of_isGray (nonnegative : Scalar.atMost 0.0 options.colorTolerance = true)
    (avoids : AvoidsJpx options document image.entries)
    (isGray : ∀ space, ImageObject.colorSpace document image = .ok space → space.IsGray) :
    imageColored options document image ≠ .ok true := by
  intro colored
  simp only [imageColored, Outcome.bind_eq_ok] at colored
  obtain ⟨_, _, colored⟩ := colored
  split_ifs at colored
  · cases colored
  · simp only [Outcome.bind_eq_ok] at colored
    obtain ⟨space, found, verdict, judged, colored⟩ := colored
    exact verdictColored_of_isGray nonnegative (isGray space found) avoids judged
      (fun _ read => components_of_samples found read) colored

/-- An image in gray has gray as its color space. -/
theorem get?_withGray (levels : GrayImage) (encoder : ImageEncoder) (data : Bytes) :
    (ImageObject.withGray image levels encoder data).entries.get? "ColorSpace" =
      some (.named "DeviceGray") := by
  unfold ImageObject.withGray Stream.ofData
  cases encoder.filterObject? <;> cases encoder.parameterObject? <;> simp +decide

/-- What a conversion puts in the place of an image stores a gray space. -/
theorem storesGray_of_convertImage
    (converted : Conversion.convertImage image job = .ok (some gray) after) :
    ∃ object, gray.entries.get? "ColorSpace" = some object ∧ object.StoresGray := by
  simp only [Conversion.convertImage, Change.bind_eq_ok, Change.get_eq_ok, Change.lift_eq_ok]
    at converted
  obtain ⟨_, _, ⟨rfl, rfl⟩, isMask, _, ⟨_, rfl⟩, converted⟩ := converted
  split_ifs at converted
  · cases converted
  · simp only [Change.bind_eq_ok, Change.lift_eq_ok] at converted
    obtain ⟨space, _, ⟨_, rfl⟩, task, _, ⟨atTask, rfl⟩, converted⟩ := converted
    cases task with
    | keep => cases converted
    | replaceSpace partner =>
        simp only [Change.bind_eq_ok, Change.pure_eq_ok, Job.onDocument, Change.within_eq_ok,
          Change.always_eq_ok] at converted
        obtain ⟨object, _, ⟨_, ⟨rfl, _⟩, _⟩, same, _⟩ := converted
        obtain rfl := Option.some.inj same
        refine ⟨(partner.toObject job.document).1, by simp [ImageObject.withColorSpace], ?_⟩
        exact (isGray_of_imageTask atTask).storesGray_toObject _
    | replaceSamples space encoder =>
        simp only [Change.bind_eq_ok, Change.lift_eq_ok, Change.pure_eq_ok] at converted
        obtain ⟨_, _, _, _, _, _, ⟨data, encoder⟩, _, _, same, _⟩ := converted
        obtain rfl := Option.some.inj same
        exact ⟨_, get?_withGray _ encoder data, .deviceGray⟩

/-- An image that a conversion leaves is gray in every document. -/
theorem isGray_of_convertImage (converted : Conversion.convertImage image job = .ok (some gray) after)
    (found : ImageObject.colorSpace document gray = .ok space) : space.IsGray := by
  obtain ⟨object, stored, stores⟩ := storesGray_of_convertImage converted
  simp only [ImageObject.colorSpace, stored, Outcome.bind_eq_ok] at found
  obtain ⟨isMask, _, found⟩ := found
  split_ifs at found
  · exact Except.ok.inj found ▸ .deviceGray
  · exact ColorSpace.isGray_of_read stores found

/-- An image that a conversion keeps is not colored where it was kept. -/
theorem imageColored_of_kept (avoids : AvoidsJpx options job.document image.entries)
    (sameOptions : job.converter.options = options)
    (kept : Conversion.convertImage image job = .ok none after) :
    imageColored options job.document image ≠ .ok true := by
  intro colored
  simp only [Conversion.convertImage, Change.bind_eq_ok, Change.get_eq_ok, Change.lift_eq_ok]
    at kept
  obtain ⟨_, _, ⟨rfl, rfl⟩, isMask, _, ⟨maskRead, rfl⟩, kept⟩ := kept
  simp only [imageColored, maskRead, Outcome.bind_eq_ok, Except.ok.injEq, exists_eq_left']
    at colored
  split_ifs at kept colored
  · cases colored
  · simp only [Change.bind_eq_ok, Change.lift_eq_ok] at kept
    obtain ⟨space, _, ⟨found, rfl⟩, task, _, ⟨atTask, rfl⟩, kept⟩ := kept
    simp only [found, Outcome.bind_eq_ok, Except.ok.injEq, exists_eq_left'] at colored
    obtain ⟨verdict, judged, colored⟩ := colored
    cases task with
    | keep =>
        rw [sameOptions] at atTask
        obtain rfl := eq_gray_of_keep avoids (fun _ => rfl) atTask judged
        cases colored
    | replaceSpace partner =>
        obtain ⟨_, _, _, same⟩ := Change.bind_eq_ok.1 kept
        cases same
    | replaceSamples space encoder =>
        simp only [Change.bind_eq_ok, Change.pure_eq_ok] at kept
        obtain ⟨_, _, _, _, _, _, ⟨_, _⟩, _, _, same, _⟩ := kept
        cases same

end Image

section InlineImage

variable {image gray again : Stream} {scope : Scope} {scene after : Scene}

/-- The samples of an inline image have as many components as its color space. -/
theorem components_of_inlineSamples {samples : SampleImage Float32}
    (found : InlineImage.colorSpace scope image = .ok space)
    (read : InlineImage.samples scope image = .ok samples) :
    samples.components = space.componentCount := by
  simp only [InlineImage.samples, found, Outcome.bind_eq_ok, Except.ok.injEq, exists_eq_left']
    at read
  obtain ⟨_, _, _, _, _, _, decoded⟩ := read
  exact SampleImage.components_of_decodeStream decoded

/-- An inline image in a gray space is not colored. -/
theorem inlineImageColored_of_isGray
    (nonnegative : Scalar.atMost 0.0 options.colorTolerance = true)
    (avoids : AvoidsJpx options scope.document image.entries)
    (isGray : ∀ space, InlineImage.colorSpace scope image = .ok space → space.IsGray) :
    inlineImageColored options scope image ≠ .ok true := by
  intro colored
  unfold inlineImageColored at colored
  split_ifs at colored
  · cases colored
  · simp only [Outcome.bind_eq_ok] at colored
    obtain ⟨space, found, verdict, judged, colored⟩ := colored
    exact verdictColored_of_isGray nonnegative (isGray space found) avoids judged
      (fun _ read => components_of_inlineSamples found read) colored

/-- An inline image with a gray space under its abbreviated key has a gray space. -/
theorem isGray_of_shortSpace {object : Object} (stored : image.entries.get? "CS" = some object)
    (stores : object.StoresGray) (found : InlineImage.colorSpace scope image = .ok space) :
    space.IsGray := by
  simp only [InlineImage.colorSpace, InlineImage.shortFirst?, stored, Option.some_or] at found
  split_ifs at found
  · exact Except.ok.inj found ▸ .deviceGray
  · split at found
    · contradiction
    · rename_i bytes isName
      obtain rfl := Option.some.inj isName
      generalize isObject : Object.name bytes = object at stores
      cases stores with
      | deviceGray =>
          obtain rfl := Object.name.inj isObject
          rw [Text.ofBytes_ascii (by decide)] at found
          exact Except.ok.inj found ▸ .deviceGray
      | pattern =>
          obtain rfl := Object.name.inj isObject
          rw [Text.ofBytes_ascii (by decide)] at found
          exact Except.ok.inj found ▸ .pattern
      | _ => cases isObject
    · rename_i isObject
      obtain rfl := Option.some.inj isObject
      exact ColorSpace.isGray_of_read stores found

/-- Inserting entries leaves the keys alone that are not among theirs. -/
theorem find?_foldl_insert_of_notMem {entries : List (Bytes × Object)} {key : Bytes}
    (absent : ∀ entry ∈ entries, entry.1 ≠ key) (table : Dictionary) :
    (entries.foldl (fun (table : Dictionary) (key, value) => table.insert key value) table).find?
      key = table.find? key := by
  induction entries generalizing table with
  | nil => rfl
  | cons entry rest inductionHypothesis =>
      rw [List.foldl_cons, inductionHypothesis fun other inRest => absent other (by simp [inRest]),
        Table.find?_insert, if_neg (absent entry (by simp))]

/-- An inline image in gray has gray as its color space. -/
theorem get?_inlineWithGray {levels : GrayImage} {encoder : ImageEncoder}
    (written : InlineImage.withGray image levels encoder = .ok gray) :
    gray.entries.get? "CS" = some (.named "DeviceGray") := by
  simp only [InlineImage.withGray, Outcome.bind_eq_ok, Outcome.pure_eq_ok] at written
  obtain ⟨⟨data, encoder⟩, _, rfl⟩ := written
  dsimp only [Stream.ofData]
  rw [Dictionary.get?_set, if_neg (by decide), Dictionary.get?, find?_foldl_insert_of_notMem]
  · cases encoder.filterObject? <;> cases encoder.parameterObject? <;>
      simp +decide [Dictionary.ofEntries, Table.ofList]
  · intro entry kept isSpace
    have notSample := (List.mem_filter.1 kept).2
    rw [isSpace] at notSample
    revert notSample
    decide

/-- What a conversion puts in the place of an inline image stores a gray space, or it is the image,
which is a stencil or gray. -/
theorem convertInlineImage_eq_ok
    (converted : Conversion.convertInlineImage image scene = .ok gray after) :
    (∃ object, gray.entries.get? "CS" = some object ∧ object.StoresGray) ∨
      gray = image ∧ (InlineImage.isMask image = true ∨
        ∃ space, InlineImage.colorSpace scene.scope image = .ok space ∧
          Conversion.imageTask scene.converter.options scene.document image.entries space false =
            .ok .keep) := by
  obtain ⟨_, _, read, converted⟩ := Change.bind_eq_ok.1 converted
  obtain ⟨rfl, rfl⟩ := Change.get_eq_ok.1 read
  split_ifs at converted with isMask
  · obtain ⟨rfl, _⟩ := Change.pure_eq_ok.1 converted
    exact Or.inr ⟨rfl, Or.inl isMask⟩
  · simp only [Change.bind_eq_ok, Change.lift_eq_ok] at converted
    obtain ⟨space, _, ⟨found, rfl⟩, task, _, ⟨atTask, rfl⟩, converted⟩ := converted
    cases task with
    | keep =>
        obtain ⟨rfl, _⟩ := Change.pure_eq_ok.1 converted
        exact Or.inr ⟨rfl, Or.inr ⟨space, found, atTask⟩⟩
    | replaceSpace partner =>
        simp only [Change.bind_eq_ok, Change.pure_eq_ok, Scene.onScope, Scope.onDocument,
          Change.within_eq_ok, Change.always_eq_ok] at converted
        obtain ⟨_, _, ⟨_, ⟨rfl, _⟩, _⟩, rfl, _⟩ := converted
        refine Or.inl ⟨(partner.toObject scene.document).1, ?_, ?_⟩
        · simp [InlineImage.withColorSpace, Scene.scope]
        · exact (isGray_of_imageTask atTask).storesGray_toObject _
    | replaceSamples space encoder =>
        simp only [Change.bind_eq_ok, Change.lift_eq_ok] at converted
        obtain ⟨_, _, _, _, _, _, _, _, _, written, _⟩ := converted
        exact Or.inl ⟨_, get?_inlineWithGray written, .deviceGray⟩

/-- An inline image that a conversion changed is not colored, in whatever scope it is judged, nor is
one that is read with the same color space. -/
theorem inlineImageColored_of_changed
    (nonnegative : Scalar.atMost 0.0 options.colorTolerance = true)
    (avoids : AvoidsJpx options scope.document again.entries)
    (converted : Conversion.convertInlineImage image scene = .ok gray after)
    (changed : gray ≠ image) (same : again.entries.get? "CS" = gray.entries.get? "CS") :
    inlineImageColored options scope again ≠ .ok true := by
  rcases convertInlineImage_eq_ok converted with ⟨object, stored, stores⟩ | ⟨kept, _⟩
  · exact inlineImageColored_of_isGray nonnegative avoids fun _ found =>
      isGray_of_shortSpace (same.trans stored) stores found
  · contradiction

/-- An inline image that a conversion keeps is not colored where it was kept. -/
theorem inlineImageColored_of_kept
    (nonnegative : Scalar.atMost 0.0 options.colorTolerance = true)
    (avoids : AvoidsJpx options scene.document image.entries)
    (sameOptions : scene.converter.options = options)
    (kept : Conversion.convertInlineImage image scene = .ok image after) :
    inlineImageColored options scene.scope image ≠ .ok true := by
  rcases convertInlineImage_eq_ok kept with ⟨object, stored, stores⟩ | ⟨_, isMask | ⟨space, found, keep⟩⟩
  · exact inlineImageColored_of_isGray nonnegative avoids fun _ found =>
      isGray_of_shortSpace stored stores found
  · simp [inlineImageColored, isMask, pure, Except.pure]
  · intro colored
    unfold inlineImageColored at colored
    split_ifs at colored
    · cases colored
    · simp only [found, Outcome.bind_eq_ok, Except.ok.injEq, exists_eq_left'] at colored
      obtain ⟨verdict, judged, colored⟩ := colored
      rw [sameOptions] at keep
      obtain rfl := eq_gray_of_keep avoids (fun same => same) keep judged
      cases colored

end InlineImage

end Detection

end Monochrome
