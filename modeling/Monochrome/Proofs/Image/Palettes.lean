import Monochrome.Image.Raster
import Monochrome.Proofs.ColorSpace.Palettes
import Monochrome.Proofs.Limits

/-!
# Images with a palette

Samples select an entry of a palette, and the same entry of its partner in gray.  So an image that
keeps its samples and gets the partner of its palette is seen in gray, pixel by pixel.
-/

namespace Monochrome

section Scalars

variable {Single Double : Type} [Scalar Single] [Analysis Single] [Scalar Double]
  [Analysis Double] [Precision Single Double]

/-- The image with another color for each of its pixels. -/
def RgbImage.map (change : Rgb Single → Rgb Single) (image : RgbImage Single) : RgbImage Single :=
  { image with pixels := image.pixels.map change }

namespace SampleImage

variable {space other : ColorSpace Single Double} {change : Rgb Single → Rgb Single}

/-- Pixels are seen in changed colors if all components are. -/
theorem pixelColors_map (changes : ∀ values, other.toRgb values = change <$> space.toRgb values)
    (image : SampleImage Single) (intervals : List (Single × Single)) (count : Nat)
    (samples : List Nat) :
    image.pixelColors other intervals count samples =
      List.map change <$> image.pixelColors space intervals count samples := by
  induction count generalizing samples with
  | zero => rfl
  | succ count inductionHypothesis =>
      rw [pixelColors, pixelColors, changes, inductionHypothesis]
      simp

/-- Rows are seen in changed colors if all components are. -/
theorem rowColors_map (changes : ∀ values, other.toRgb values = change <$> space.toRgb values)
    (image : SampleImage Single) (intervals : List (Single × Single)) (count : Nat)
    (data : Bytes) :
    image.rowColors other intervals count data =
      List.map change <$> image.rowColors space intervals count data := by
  induction count generalizing data with
  | zero => rfl
  | succ count inductionHypothesis =>
      simp only [rowColors, pixelColors_map changes, inductionHypothesis]
      simp

/-- An image is seen in changed colors in a space that shows all components so and reads samples
alike. -/
theorem toRgb_map {image : SampleImage Single}
    (changes : ∀ values, other.toRgb values = change <$> space.toRgb values)
    (fits : image.components = space.componentCount)
    (sameCount : other.componentCount = space.componentCount)
    (sameIntervals : other.sampleIntervals image.bits = space.sampleIntervals image.bits) :
    image.toRgb other = RgbImage.map change <$> image.toRgb space := by
  have reading : image.readingSpace space = .ok space := if_pos fits
  have readingOther : image.readingSpace other = .ok other := if_pos (fits.trans sameCount.symm)
  have intervals : image.intervals other = image.intervals space := by
    simp only [SampleImage.intervals, intervals.defaultIntervals, reading, readingOther, sameCount,
      sameIntervals]
  rw [toRgb, toRgb, reading, readingOther, intervals]
  simp only [Limited.ok_bind, rowColors_map changes]
  simp [RgbImage.map]

end SampleImage

namespace ColorSpace

variable {base gray : ColorSpace Single Double} {last : Nat} {palette : Bytes}

/-- An image with a palette is seen in the partner of the palette with each of its colors made
gray. -/
theorem toRgb_image_of_toGray {image : SampleImage Single} (single : image.components = 1)
    (converted : (indexed base last palette).toGray = .ok gray) :
    image.toRgb gray = RgbImage.map Rgb.grayed <$> image.toRgb (indexed base last palette) := by
  obtain ⟨grays, isPalette, rfl⟩ := eq_indexed_of_toGray converted
  exact SampleImage.toRgb_map (toRgb_grayPalette isPalette) single rfl rfl

end ColorSpace
end Scalars

namespace SampleImage

variable {base gray : ColorSpace Float32 Float} {last : Nat} {palette : Bytes}
  (converted : (ColorSpace.indexed base last palette).toGray = .ok gray)
include converted

/-- An image of one component that is seen in a palette is seen in its partner in gray as well, with
as many pixels: each has the byte of the gray level of the color that it had. -/
theorem exists_toRgb_of_indexed {image : SampleImage Float32} {colors : RgbImage Float32}
    (single : image.components = 1) (seen : image.toRgb (.indexed base last palette) = .ok colors) :
    ∃ grays, image.toRgb gray = .ok grays ∧ grays.width = colors.width ∧
      grays.height = colors.height ∧ grays.pixels.length = colors.pixels.length ∧
      grays.pixels = colors.pixels.map fun color =>
        .neutral (Scalar.ofNat (Scalar.levelByte color.gray).toNat / 255.0) := by
  refine ⟨colors.map Rgb.grayed, ?_, rfl, rfl, List.length_map _, ?_⟩
  · rw [ColorSpace.toRgb_image_of_toGray single converted, seen]
    rfl
  · refine List.map_congr_left fun color _ => ?_
    rw [Rgb.grayed, byteWithin_unit]

/-- No sample selects anything outside of the gray partner of a palette. -/
theorem exists_neutral_of_indexed (value : Float32) :
    ∃ level, gray.toRgb [value] = .ok (.neutral level) := by
  obtain ⟨grays, isPalette, rfl⟩ := ColorSpace.eq_indexed_of_toGray converted
  obtain ⟨color, _, seen⟩ := ColorSpace.toRgb_of_grayPalette isPalette value
  exact ⟨_, seen⟩

end SampleImage
end Monochrome
