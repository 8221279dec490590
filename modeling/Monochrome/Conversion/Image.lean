import Monochrome.Conversion.Basic
import Monochrome.Image.Inline
import Monochrome.Image.Object

/-!
# Converting images

An image with a palette gets a gray palette; any other image with several components a pixel is
decoded, and its gray levels are encoded as it was.  Stencils and images with one component are
gray already.  Images that cannot be decoded, or that hold nothing but gray, stay as they are.
-/

namespace Monochrome
namespace Conversion

/-- What is to be done with an image. -/
inductive ImageTask
  | keep
  | replaceSpace (space : ColorSpace Float32 Float)
  | replaceSamples (space : ColorSpace Float32 Float) (encoder : ImageEncoder)

/-- What is to be done with an image that has samples in a color space. -/
def imageTask (options : Options) (document : Document) (entries : Dictionary)
    (space : ColorSpace Float32 Float) (leaveRuns : Bool) : Outcome ImageTask := do
  match space with
  | .indexed _ _ _ => return .replaceSpace (← space.toGray)
  | space =>
    if space.componentCount = 1 then return .keep
    let encoder ← ImageEncoder.read document entries options.jpegQuality
    if options.ignoreGrayFilters && encoder.isGrayOnly then return .keep
    if leaveRuns && encoder.uses .runLength then return .keep
    if encoder.uses .jpx then return .keep
    return .replaceSamples space (encoder.withComponents 1)

/-- The image object in gray, if it has to change. -/
def convertImage (image : Stream) : Change Job (Option Stream) := do
  let job ← get
  let document := job.document
  if ← ImageObject.isMask document image then return none
  let space ← ImageObject.colorSpace document image
  let task ← imageTask job.converter.options document image.entries space
    (ImageObject.hasSoftMask image)
  match task with
  | .keep => return none
  | .replaceSpace gray =>
    let object ← Job.onDocument (Change.always id (fun document _ => document) gray.toObject)
    return some (ImageObject.withColorSpace image object)
  | .replaceSamples space encoder =>
    let colors ← (← ImageObject.samples document image).toRgb space
    let gray := colors.toGray
    let (data, encoder) ← encoder.encodeWithFallback gray
    return some (ImageObject.withGray image gray encoder data)

/-- The inline image in gray. -/
def convertInlineImage (image : Stream) : Change Scene Stream := do
  let scene ← get
  if InlineImage.isMask image then return image
  let space ← InlineImage.colorSpace scene.scope image
  let task ← imageTask scene.converter.options scene.document image.entries space false
  match task with
  | .keep => return image
  | .replaceSpace gray =>
    let object ← Scene.onScope (Scope.onDocument gray.toObject)
    return InlineImage.withColorSpace image object
  | .replaceSamples space encoder =>
    let colors ← (← InlineImage.samples scene.scope image).toRgb space
    Scene.onJob <| Job.count fun counts =>
      { counts with imagesConverted := counts.imagesConverted + 1 }
    InlineImage.withGray image colors.toGray encoder

end Conversion
end Monochrome
