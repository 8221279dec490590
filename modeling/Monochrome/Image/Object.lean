import Monochrome.ColorSpace.Storage
import Monochrome.Image.Samples

/-!
# Image objects

An image that is an object of its own is a stream whose dictionary describes its samples.
-/

namespace Monochrome
namespace ImageObject

/-- Whether an image is a stencil, through which the current color is painted. -/
def isMask (document : Document) (image : Stream) : Outcome Bool :=
  return Object.isTrue (← document.entry? image.entries "ImageMask")

/-- Whether an image has a soft mask. -/
def hasSoftMask (image : Stream) : Bool :=
  (image.entries.get? "SMask").isSome

/-- The color space of an image; stencils and images without one are gray. -/
def colorSpace (document : Document) (image : Stream) : Outcome (ColorSpace Float32 Float) := do
  if ← isMask document image then return .deviceGray
  match image.entries.get? "ColorSpace" with
  | some space => ColorSpace.read document space
  | none => return .deviceGray

/-- The width of an image. -/
def width (document : Document) (image : Stream) : Outcome Nat :=
  SampleImage.dimension document image.entries "Width" "W"

/-- The height of an image. -/
def height (document : Document) (image : Stream) : Outcome Nat :=
  SampleImage.dimension document image.entries "Height" "H"

/-- The number of bits of a sample of an image. -/
def depth (document : Document) (image : Stream) : Outcome Nat := do
  if ← isMask document image then return 1
  SampleImage.depthOf (← document.integerEntry? image.entries "BitsPerComponent")

/-- The samples of an image. -/
def samples (document : Document) (image : Stream) : Outcome (SampleImage Float32) := do
  let space ← colorSpace document image
  let bits ← depth document image
  let width ← width document image
  let height ← height document image
  SampleImage.decodeStream document image width height space.componentCount bits

/-- The entries that describe the samples. -/
def sampleKeys : List String :=
  ["Filter", "DecodeParms", "Decode", "Length", "ColorSpace", "BitsPerComponent"]

/-- The dictionary of an image without what describes its samples; a mask that refers to their
values goes too. -/
def otherEntries (image : Stream) : Dictionary :=
  let entries := sampleKeys.foldl Dictionary.remove image.entries
  match entries.get? "Mask" with
  | some (.array _) => entries.remove "Mask"
  | _ => entries

/-- The image with gray levels, encoded to the given data, in the place of its samples. -/
def withGray (image : Stream) (gray : GrayImage) (encoder : ImageEncoder) (data : Bytes) :
    Stream :=
  let description := [("Width", Object.integer (Int64.ofNat gray.width)),
    ("Height", .integer (Int64.ofNat gray.height)), ("ColorSpace", .named "DeviceGray"),
    ("BitsPerComponent", .integer 8)]
  let coding := encoder.filterObject?.toList.map (("Filter", ·)) ++
    encoder.parameterObject?.toList.map (("DecodeParms", ·))
  let entries := (description ++ coding).foldl
    (fun (entries : Dictionary) (key, value) => entries.set key value) (otherEntries image)
  Stream.ofData entries data

/-- The image with the same samples in another color space. -/
def withColorSpace (image : Stream) (space : Object) : Stream :=
  { image with entries := image.entries.set "ColorSpace" space }

end ImageObject
end Monochrome
