import Monochrome.Content.InlineImage
import Monochrome.Image.Samples
import Monochrome.Resources.ColorSpaces

/-!
# Images in content

An inline image describes its samples with abbreviated keys and names.  Its color space may be
named in the resources of the content.
-/

namespace Monochrome
namespace InlineImage

/-- The value of a key that may be abbreviated; the abbreviated key comes first. -/
def shortFirst? (image : Stream) (full short : String) : Option Object :=
  (image.entries.get? short).or (image.entries.get? full)

/-- Whether an image is a stencil, through which the current color is painted. -/
def isMask (image : Stream) : Bool :=
  Object.isTrue (shortFirst? image "ImageMask" "IM")

/-- The color space of an image; stencils and images without one are gray. -/
def colorSpace (scope : Scope) (image : Stream) : Outcome (ColorSpace Float32 Float) :=
  if isMask image then .ok .deviceGray
  else
    match shortFirst? image "ColorSpace" "CS" with
    | none => .ok .deviceGray
    | some (.name bytes) =>
      match ColorSpace.ofName? (Text.ofBytes bytes) with
      | some space => .ok space
      | none => scope.colorSpace (Text.ofBytes bytes)
    | some space => ColorSpace.read scope.document space

/-- The number of bits of a sample of an image. -/
def depth (image : Stream) : Outcome Nat :=
  if isMask image then .ok 1
  else SampleImage.depthOf ((shortFirst? image "BitsPerComponent" "BPC").bind Object.integer?)

/-- The samples of an image. -/
def samples (scope : Scope) (image : Stream) : Outcome (SampleImage Float32) := do
  let space ← colorSpace scope image
  let width ← SampleImage.dimension scope.document image.entries "Width" "W"
  let height ← SampleImage.dimension scope.document image.entries "Height" "H"
  let bits ← depth image
  SampleImage.decodeStream scope.document image width height space.componentCount bits

/-- The entries that describe the samples. -/
def sampleKeys : List String :=
  ["W", "Width", "H", "Height", "CS", "ColorSpace", "BPC", "BitsPerComponent", "F", "Filter",
    "DP", "DecodeParms", "D", "Decode", "Length", "L"]

/-- The image with encoded gray levels in the place of its samples.  What describes the samples
comes first in its dictionary. -/
def withGray (image : Stream) (gray : GrayImage) (encoder : ImageEncoder) : Outcome Stream := do
  let (data, encoder) ← encoder.encodeWithFallback gray
  let description := [("W", Object.integer (Int64.ofNat gray.width)),
    ("H", .integer (Int64.ofNat gray.height)), ("CS", .named "DeviceGray"), ("BPC", .integer 8)]
  let coding := encoder.filterObject?.toList.map (("F", ·)) ++
    encoder.parameterObject?.toList.map (("DP", ·))
  let others := image.entries.entries.filter fun (key, _) =>
    !(sampleKeys.map Bytes.ascii).contains key
  let entries := others.foldl (fun (entries : Dictionary) (key, value) => entries.insert key value)
    (Dictionary.ofEntries (description ++ coding))
  return Stream.ofData entries data

/-- The image with the same samples in another color space. -/
def withColorSpace (image : Stream) (space : Object) : Stream :=
  { image with entries := (image.entries.remove "ColorSpace").set "CS" space }

end InlineImage
end Monochrome
