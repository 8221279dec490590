import Monochrome.Proofs.ColorSpace.Storing
import Monochrome.Proofs.Detection.Products
import Monochrome.Proofs.Image.InlineReadingBack
import Monochrome.Proofs.Image.Palettes

/-!
# Images that keep their samples

An image with a palette, as an object of its own or in content, is converted to one with the partner
of its palette.  Nothing else that tells the samples of the image is changed, so its samples are read
as before, and each of them selects the gray of the color that it selected.
-/

namespace Monochrome

open Document Outcome

variable {document : Document} {image recolored : Stream}

/-! ## What is read of an image -/

/-- The keys of the color space of an image. -/
def ImageObject.spaceKeys : List String :=
  ["ColorSpace", "CS"]

/-- Whether a stream has the data of another one, and the same entries but for a color space. -/
structure Stream.Recolors (recolored image : Stream) : Prop where
  data : recolored.data = image.data
  entry (key : String) (isOther : Bytes.ascii key ∉ ImageObject.spaceKeys.map Bytes.ascii) :
    recolored.entries.get? key = image.entries.get? key

namespace Document

variable {entries others : Dictionary} {first second : String}

/-- The value of a key is the same in dictionaries with the same entry. -/
theorem entry?_congr (same : entries.get? first = others.get? first) :
    document.entry? entries first = document.entry? others first := by
  rw [Document.entry?, Document.entry?, same]

/-- The value of the first of two keys is the same in dictionaries with the same entries. -/
theorem eitherEntry?_congr (sameFirst : entries.get? first = others.get? first)
    (sameSecond : entries.get? second = others.get? second) :
    document.eitherEntry? entries first second = document.eitherEntry? others first second := by
  rw [Document.eitherEntry?, Document.eitherEntry?, entry?_congr sameFirst, entry?_congr sameSecond]

end Document

namespace Stream.Recolors

variable (recolors : recolored.Recolors image)
include recolors

/-- A dimension is as before. -/
theorem dimension_eq {full short : String}
    (isOther : Bytes.ascii full ∉ ImageObject.spaceKeys.map Bytes.ascii)
    (isOtherShort : Bytes.ascii short ∉ ImageObject.spaceKeys.map Bytes.ascii) :
    SampleImage.dimension document recolored.entries full short =
      SampleImage.dimension document image.entries full short := by
  rw [SampleImage.dimension, SampleImage.dimension,
    eitherEntry?_congr (recolors.entry full isOther) (recolors.entry short isOtherShort)]

/-- Decoding the data is as before. -/
theorem decodeStream_eq (width height components bits : Nat) :
    SampleImage.decodeStream document recolored width height components bits =
      SampleImage.decodeStream document image width height components bits := by
  have filters : document.eitherEntry? recolored.entries "Filter" "F" =
      document.eitherEntry? image.entries "Filter" "F" :=
    eitherEntry?_congr (recolors.entry _ (by decide)) (recolors.entry _ (by decide))
  have parameters : document.eitherEntry? recolored.entries "DecodeParms" "DP" =
      document.eitherEntry? image.entries "DecodeParms" "DP" :=
    eitherEntry?_congr (recolors.entry _ (by decide)) (recolors.entry _ (by decide))
  have intervals : document.eitherEntry? recolored.entries "Decode" "D" =
      document.eitherEntry? image.entries "Decode" "D" :=
    eitherEntry?_congr (recolors.entry _ (by decide)) (recolors.entry _ (by decide))
  simp only [SampleImage.decodeStream, Stream.decode, Filter.chain, Filter.names,
    Filter.parameterDictionaries, SampleImage.decodeArray?, filters, parameters, intervals,
    recolors.data]

end Stream.Recolors

namespace ImageObject

variable {space other : ColorSpace Float32 Float}

/-- An image is a stencil if it was one before. -/
theorem isMask_of_recolors (recolors : recolored.Recolors image) :
    isMask document recolored = isMask document image := by
  rw [isMask, isMask, entry?_congr (recolors.entry _ (by decide))]

/-- The samples of an image are as before in a space with as many components. -/
theorem samples_of_recolors (recolors : recolored.Recolors image)
    (found : colorSpace document image = .ok space)
    (foundOther : colorSpace document recolored = .ok other)
    (sameCount : other.componentCount = space.componentCount) :
    samples document recolored = samples document image := by
  have sameDepth : depth document recolored = depth document image := by
    rw [depth, depth, isMask_of_recolors recolors, integerEntry?, integerEntry?,
      entry?_congr (recolors.entry _ (by decide))]
  have sameWidth : width document recolored = width document image :=
    recolors.dimension_eq (by decide) (by decide)
  have sameHeight : height document recolored = height document image :=
    recolors.dimension_eq (by decide) (by decide)
  simp only [samples, found, foundOther, sameDepth, sameWidth, sameHeight, sameCount,
    recolors.decodeStream_eq, Limited.ok_bind]

/-- An image in another space has nothing but another space. -/
theorem recolors_withColorSpace (object : Object) :
    (withColorSpace image object).Recolors image where
  data := rfl
  entry key isOther := by
    rw [withColorSpace, Dictionary.get?_set, if_neg]
    intro same
    simp [spaceKeys, same] at isOther

/-- The space of an image that is no stencil is read from its entry. -/
theorem colorSpace_of_entry {object : Object} (notMask : isMask document image = .ok false)
    (isEntry : image.entries.get? "ColorSpace" = some object) :
    colorSpace document image = ColorSpace.read document object := by
  rw [colorSpace, notMask, isEntry]
  rfl

/-- An image that is no stencil has the space that it is given. -/
theorem colorSpace_withColorSpace (notMask : isMask document image = .ok false) (object : Object) :
    colorSpace document (withColorSpace image object) = ColorSpace.read document object :=
  colorSpace_of_entry ((isMask_of_recolors (recolors_withColorSpace object)).trans notMask)
    (by rw [withColorSpace, Dictionary.get?_set, if_pos rfl])

end ImageObject

namespace InlineImage

variable {scope : Scope} {space other : ColorSpace Float32 Float}

/-- A value under a full or an abbreviated key is as before. -/
theorem shortFirst?_of_recolors {full short : String} (recolors : recolored.Recolors image)
    (isOther : Bytes.ascii full ∉ ImageObject.spaceKeys.map Bytes.ascii)
    (isOtherShort : Bytes.ascii short ∉ ImageObject.spaceKeys.map Bytes.ascii) :
    shortFirst? recolored full short = shortFirst? image full short := by
  rw [shortFirst?, shortFirst?, recolors.entry full isOther, recolors.entry short isOtherShort]

/-- An inline image is a stencil if it was one before. -/
theorem isMask_of_recolors (recolors : recolored.Recolors image) :
    isMask recolored = isMask image := by
  rw [isMask, isMask, shortFirst?_of_recolors recolors (by decide) (by decide)]

/-- The samples of an inline image are as before in a space with as many components. -/
theorem samples_of_recolors (recolors : recolored.Recolors image)
    (found : colorSpace scope image = .ok space) (foundOther : colorSpace scope recolored = .ok other)
    (sameCount : other.componentCount = space.componentCount) :
    samples scope recolored = samples scope image := by
  have sameDepth : depth recolored = depth image := by
    rw [depth, depth, isMask_of_recolors recolors,
      shortFirst?_of_recolors recolors (by decide) (by decide)]
  have sameWidth : SampleImage.dimension scope.document recolored.entries "Width" "W" =
      SampleImage.dimension scope.document image.entries "Width" "W" :=
    recolors.dimension_eq (by decide) (by decide)
  have sameHeight : SampleImage.dimension scope.document recolored.entries "Height" "H" =
      SampleImage.dimension scope.document image.entries "Height" "H" :=
    recolors.dimension_eq (by decide) (by decide)
  simp only [samples, found, foundOther, sameDepth, sameWidth, sameHeight, sameCount,
    recolors.decodeStream_eq, Limited.ok_bind]

/-- An inline image in another space has nothing but another space. -/
theorem recolors_withColorSpace (distinct : image.entries.HasDistinctKeys) (object : Object) :
    (withColorSpace image object).Recolors image where
  data := rfl
  entry key isOther := by
    simp only [ImageObject.spaceKeys, List.map_cons, List.map_nil, List.mem_cons, List.not_mem_nil,
      or_false, not_or] at isOther
    rw [withColorSpace, Dictionary.get?_set, if_neg (Ne.symm isOther.2)]
    -- An entry moves when the one under the full key is erased, which keeps it only if keys are distinct.
    refine ((Table.erase_spec distinct _).2 _).trans ?_
    rw [if_neg (Ne.symm isOther.1)]
    rfl

/-- The space of an inline image that is no stencil is read from its entry, if that is an array. -/
theorem colorSpace_of_entry {items : List Object} (notMask : isMask image = false)
    (isEntry : shortFirst? image "ColorSpace" "CS" = some (.array items)) :
    colorSpace scope image = ColorSpace.read scope.document (.array items) := by
  rw [colorSpace, notMask, isEntry]
  rfl

/-- An inline image that is no stencil has the space of the array that it is given. -/
theorem colorSpace_withColorSpace (distinct : image.entries.HasDistinctKeys)
    (notMask : isMask image = false) (items : List Object) :
    colorSpace scope (withColorSpace image (.array items)) =
      ColorSpace.read scope.document (.array items) :=
  colorSpace_of_entry ((isMask_of_recolors (recolors_withColorSpace distinct _)).trans notMask)
    (by rw [shortFirst?, withColorSpace, Dictionary.get?_set, if_pos rfl, Option.some_or])

end InlineImage

/-! ## Palettes that are read -/

namespace ColorSpace

variable {object : Object} {base gray : ColorSpace Float32 Float} {last : Nat} {palette : Bytes}

/-- The partner of a palette that was read is stored as an array, without any other object, and read
back from it. -/
theorem exists_array_of_toGray (isRead : read document object = .ok (indexed base last palette))
    (converted : (indexed base last palette).toGray = .ok gray) :
    ∃ items, (∀ other, gray.toObject other = (.array items, other)) ∧
      read document (.array items) = .ok gray := by
  obtain ⟨grays, -, rfl⟩ := eq_indexed_of_toGray converted
  have isByte : last ≤ 255 := (comesFrom_of_readWithin isRead).1.last_le
  exact ⟨_, fun _ => rfl, read_indexed (read_named rfl) isByte⟩

/-- An image object with a palette is no stencil, and its palette is read from an object. -/
theorem exists_read_of_imageObject
    (found : ImageObject.colorSpace document image = .ok (indexed base last palette)) :
    ImageObject.isMask document image = .ok false ∧
      ∃ object, read document object = .ok (indexed base last palette) := by
  obtain ⟨isMask, mask, found⟩ := bind_eq_ok.1 found
  split_ifs at found with stencil
  · cases found
  · refine ⟨by rw [mask, Bool.eq_false_iff.mpr stencil], ?_⟩
    split at found
    · exact ⟨_, found⟩
    · cases found

/-- A palette has no name of its own. -/
theorem ofName?_ne_indexed (name : String) : ofName? name ≠ some (indexed base last palette) := by
  intro isName
  obtain ⟨written, isWritten⟩ := exists_name?_of_ofName? isName
  cases isWritten

/-- A palette that is named in resources is read from an object. -/
theorem exists_read_of_named {scope : Scope} {name : String}
    (found : scope.colorSpace name = .ok (indexed base last palette)) :
    ∃ object, read scope.document object = .ok (indexed base last palette) := by
  obtain ⟨entry, -, found⟩ := bind_eq_ok.1 found
  split at found
  · exact ⟨_, found⟩
  · split at found
    next space isName => exact absurd (pure_eq_ok.1 found ▸ isName) (ofName?_ne_indexed name)
    next => cases found

/-- An inline image with a palette is no stencil, and its palette is read from an object. -/
theorem exists_read_of_inlineImage {scope : Scope}
    (found : InlineImage.colorSpace scope image = .ok (indexed base last palette)) :
    InlineImage.isMask image = false ∧
      ∃ object, read scope.document object = .ok (indexed base last palette) := by
  rw [InlineImage.colorSpace] at found
  split_ifs at found with stencil
  · cases found
  refine ⟨Bool.eq_false_iff.mpr stencil, ?_⟩
  split at found
  · cases found
  · split at found
    next space isName => exact absurd (Except.ok.inj found ▸ isName) (ofName?_ne_indexed _)
    next => exact exists_read_of_named found
  · exact ⟨_, found⟩

end ColorSpace

/-! ## Conversions -/

namespace Conversion

variable {base gray : ColorSpace Float32 Float} {last : Nat} {palette : Bytes}

/-- A palette is replaced by its partner, whatever the options and the samples are. -/
theorem imageTask_of_indexed (converted : (ColorSpace.indexed base last palette).toGray = .ok gray)
    (options : Options) (entries : Dictionary) (leaveRuns : Bool) :
    imageTask options document entries (.indexed base last palette) leaveRuns =
      .ok (.replaceSpace gray) := by
  rw [imageTask, converted]
  rfl

/-- A palette has as many components as its partner. -/
theorem componentCount_of_indexed
    (converted : (ColorSpace.indexed base last palette).toGray = .ok gray) :
    gray.componentCount = (ColorSpace.indexed base last palette).componentCount := by
  obtain ⟨grays, -, rfl⟩ := ColorSpace.eq_indexed_of_toGray converted
  rfl

/-- An image object with a palette is converted to one with the same samples and the partner of the
palette; nothing else changes. -/
theorem convertImage_of_indexed {job : Job}
    (converted : (ColorSpace.indexed base last palette).toGray = .ok gray)
    (found : ImageObject.colorSpace job.document image = .ok (.indexed base last palette)) :
    ∃ recolored, convertImage image job = .ok (some recolored) job ∧ recolored.Recolors image ∧
      ImageObject.colorSpace job.document recolored = .ok gray ∧
      ImageObject.samples job.document recolored = ImageObject.samples job.document image := by
  obtain ⟨notMask, object, isRead⟩ := ColorSpace.exists_read_of_imageObject found
  obtain ⟨items, isStored, isAgain⟩ := ColorSpace.exists_array_of_toGray isRead converted
  have recolors : (ImageObject.withColorSpace image (.array items)).Recolors image :=
    ImageObject.recolors_withColorSpace _
  have isSpace := (ImageObject.colorSpace_withColorSpace notMask (.array items)).trans isAgain
  refine ⟨_, ?_, recolors, isSpace,
    ImageObject.samples_of_recolors recolors found isSpace (componentCount_of_indexed converted)⟩
  simp only [convertImage, Change.bind_eq_ok, Change.get_eq_ok, Change.lift_eq_ok]
  refine ⟨job, job, ⟨rfl, rfl⟩, false, job, ⟨notMask, rfl⟩, ?_⟩
  simp only [Bool.false_eq_true, if_false, Change.bind_eq_ok, Change.lift_eq_ok]
  refine ⟨_, job, ⟨found, rfl⟩, _, job, ⟨imageTask_of_indexed converted _ _ _, rfl⟩, ?_⟩
  -- A gray palette is stored without any other object, so the job stays as it is.
  simp only [Change.bind_eq_ok, Change.pure_eq_ok, Job.onDocument, Change.within_eq_ok,
    Change.always_eq_ok, isStored]
  exact ⟨.array items, job, ⟨_, ⟨rfl, rfl⟩, rfl⟩, rfl, rfl⟩

/-- An inline image with a palette is converted to one with the same samples and the partner of the
palette; nothing else changes. -/
theorem convertInlineImage_of_indexed {scene : Scene}
    (converted : (ColorSpace.indexed base last palette).toGray = .ok gray)
    (distinct : image.entries.HasDistinctKeys)
    (found : InlineImage.colorSpace scene.scope image = .ok (.indexed base last palette)) :
    ∃ recolored, convertInlineImage image scene = .ok recolored scene ∧ recolored.Recolors image ∧
      InlineImage.colorSpace scene.scope recolored = .ok gray ∧
      InlineImage.samples scene.scope recolored = InlineImage.samples scene.scope image := by
  obtain ⟨notMask, object, isRead⟩ := ColorSpace.exists_read_of_inlineImage found
  obtain ⟨items, isStored, isAgain⟩ := ColorSpace.exists_array_of_toGray isRead converted
  have recolors := InlineImage.recolors_withColorSpace distinct (.array items)
  have isSpace := (InlineImage.colorSpace_withColorSpace distinct notMask items).trans isAgain
  refine ⟨_, ?_, recolors, isSpace,
    InlineImage.samples_of_recolors recolors found isSpace (componentCount_of_indexed converted)⟩
  simp only [convertInlineImage, Change.bind_eq_ok, Change.get_eq_ok]
  refine ⟨scene, scene, ⟨rfl, rfl⟩, ?_⟩
  simp only [notMask, Bool.false_eq_true, if_false, Change.bind_eq_ok, Change.lift_eq_ok]
  refine ⟨_, scene, ⟨found, rfl⟩, _, scene, ⟨imageTask_of_indexed converted _ _ _, rfl⟩, ?_⟩
  simp only [Change.bind_eq_ok, Change.pure_eq_ok, Scene.onScope, Change.within_eq_ok,
    Scope.onDocument, Change.always_eq_ok, isStored]
  exact ⟨.array items, scene, ⟨_, ⟨rfl, rfl⟩, rfl⟩, rfl, rfl⟩

/-- **The partner of a palette shows the gray of every image that it is given to.**  Samples that are
seen in a palette are seen in its partner as well, with as many pixels: each has the byte of the gray
level of the color that it had, and no sample selects anything outside of the gray palette.  The
conversions of an image object and of an inline image with the palette give it this partner, and leave
its samples. -/
theorem toRgb_convert_of_indexed
    (converted : (ColorSpace.indexed base last palette).toGray = .ok gray) :
    (∀ (image : SampleImage Float32) (colors : RgbImage Float32), image.components = 1 →
      image.toRgb (.indexed base last palette) = .ok colors →
        ∃ grays, image.toRgb gray = .ok grays ∧ grays.width = colors.width ∧
          grays.height = colors.height ∧ grays.pixels.length = colors.pixels.length ∧
          grays.pixels = colors.pixels.map fun color =>
            .neutral (Scalar.ofNat (Scalar.levelByte color.gray).toNat / 255.0)) ∧
      (∀ value, ∃ level, gray.toRgb [value] = .ok (.neutral level)) ∧
      (∀ (job : Job) (image : Stream),
        ImageObject.colorSpace job.document image = .ok (.indexed base last palette) →
          ∃ recolored, convertImage image job = .ok (some recolored) job ∧
            recolored.Recolors image ∧ ImageObject.colorSpace job.document recolored = .ok gray ∧
            ImageObject.samples job.document recolored =
              ImageObject.samples job.document image) ∧
      ∀ (scene : Scene) (image : Stream), image.entries.HasDistinctKeys →
        InlineImage.colorSpace scene.scope image = .ok (.indexed base last palette) →
          ∃ recolored, convertInlineImage image scene = .ok recolored scene ∧
            recolored.Recolors image ∧ InlineImage.colorSpace scene.scope recolored = .ok gray ∧
            InlineImage.samples scene.scope recolored =
              InlineImage.samples scene.scope image :=
  ⟨fun _ _ => SampleImage.exists_toRgb_of_indexed converted,
    SampleImage.exists_neutral_of_indexed converted,
    fun _ _ => convertImage_of_indexed converted,
    fun _ _ => convertInlineImage_of_indexed converted⟩

/-- A palette of red and blue. -/
def redAndBlue : ColorSpace Float32 Float :=
  .indexed .deviceRgb 1 [255, 0, 0, 0, 0, 255]

/-- The object of a palette of red and blue. -/
def redAndBlueObject : Object :=
  .array [.named "Indexed", .named "DeviceRGB", .integer 1,
    .string [255, 0, 0, 0, 0, 255] .hexadecimal]

/-- An image object with a red pixel and a blue one. -/
def redAndBlueImage : Stream :=
  ⟨Dictionary.ofEntries [("Width", .integer 2), ("Height", .integer 1),
    ("BitsPerComponent", .integer 1), ("ColorSpace", redAndBlueObject)], [64]⟩

/-- An inline image with a red pixel and a blue one. -/
def redAndBlueInline : Stream :=
  ⟨Dictionary.ofEntries [("W", .integer 2), ("H", .integer 1), ("BPC", .integer 1),
    ("CS", redAndBlueObject)], [64]⟩

/-- Pixels in red and blue are converted to two levels of gray, in an image object and in an inline
image. -/
theorem toRgb_convert_of_indexed_redAndBlue :
    ∃ gray recolored inlined grays, redAndBlue.toGray = .ok gray ∧
      convertImage redAndBlueImage ⟨default, default⟩ = .ok (some recolored) ⟨default, default⟩ ∧
      ImageObject.colorSpace default recolored = .ok gray ∧
      ImageObject.samples default recolored = .ok ⟨2, 1, 1, 1, [64], none⟩ ∧
      convertInlineImage redAndBlueInline ⟨⟨default, default⟩, default⟩ =
        .ok inlined ⟨⟨default, default⟩, default⟩ ∧
      InlineImage.colorSpace ⟨default, default⟩ inlined = .ok gray ∧
      InlineImage.samples ⟨default, default⟩ inlined = .ok ⟨2, 1, 1, 1, [64], none⟩ ∧
      SampleImage.toRgb ⟨2, 1, 1, 1, [64], none⟩ gray = .ok grays ∧
      grays.pixels =
        [.neutral (Scalar.ofNat 77 / 255.0), .neutral (Scalar.ofNat 28 / 255.0)] := by
  have isPalette : ColorSpace.grayPalette (.deviceRgb : ColorSpace Float32 Float) 1
      [255, 0, 0, 0, 0, 255] = .ok [77, 28] := by
    decide +kernel
  have converted : redAndBlue.toGray = .ok (.indexed .deviceGray 1 [77, 28]) := by
    rw [redAndBlue, ColorSpace.toGray, isPalette]
    rfl
  have isRead : ColorSpace.read default redAndBlueObject = .ok redAndBlue :=
    ColorSpace.read_indexed (ColorSpace.read_named rfl) (by decide)
  have found : ImageObject.colorSpace default redAndBlueImage = .ok redAndBlue :=
    (ImageObject.colorSpace_of_entry rfl rfl).trans isRead
  have foundInline : InlineImage.colorSpace ⟨default, default⟩ redAndBlueInline = .ok redAndBlue :=
    (InlineImage.colorSpace_of_entry rfl rfl).trans isRead
  have pixelsRead : ImageObject.samples default redAndBlueImage = .ok ⟨2, 1, 1, 1, [64], none⟩ := by
    rw [ImageObject.samples, found]
    rfl
  have pixelsReadInline : InlineImage.samples ⟨default, default⟩ redAndBlueInline =
      .ok ⟨2, 1, 1, 1, [64], none⟩ := by
    rw [InlineImage.samples, foundInline]
    rfl
  obtain ⟨shows, -, convertsObject, convertsInline⟩ := toRgb_convert_of_indexed converted
  obtain ⟨recolored, isConverted, -, isGray, sameSamples⟩ :=
    convertsObject ⟨default, default⟩ redAndBlueImage found
  obtain ⟨inlined, isConvertedInline, -, isGrayInline, sameSamplesInline⟩ :=
    convertsInline ⟨⟨default, default⟩, default⟩ redAndBlueInline (Table.hasDistinctKeys_ofList _)
      foundInline
  obtain ⟨grays, seen, -, -, -, pixels⟩ := shows ⟨2, 1, 1, 1, [64], none⟩
    ⟨2, 1, [⟨1.0, 0.0, 0.0⟩, ⟨0.0, 0.0, 1.0⟩]⟩ rfl rfl
  exact ⟨_, recolored, inlined, grays, converted, isConverted, isGray, sameSamples.trans pixelsRead,
    isConvertedInline, isGrayInline, sameSamplesInline.trans pixelsReadInline, seen,
    pixels.trans (by decide +kernel)⟩

end Conversion
end Monochrome
