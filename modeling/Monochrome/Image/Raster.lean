import Monochrome.ColorSpace.Convert

/-!
# Rasters

An image is decoded to samples, whose rows are padded to whole bytes; samples are mapped to
components of a color space, and these to colors; a gray image has one byte a pixel.
-/

namespace Monochrome

/-- The samples of an image, with the intervals onto which it maps them, if it says so. -/
structure SampleImage (Single : Type) where
  width : Nat
  height : Nat
  /-- The number of bits of a sample. -/
  bits : Nat
  /-- The number of samples of a pixel. -/
  components : Nat
  data : Bytes
  decode : Option (List Single)

/-- The colors of an image, row after row. -/
structure RgbImage (Single : Type) where
  width : Nat
  height : Nat
  pixels : List (Rgb Single)

/-- The gray levels of an image, row after row. -/
structure GrayImage where
  width : Nat
  height : Nat
  data : Bytes
deriving DecidableEq

namespace SampleImage

/-- The samples of a byte that holds several, the most significant first. -/
def unpackByte (bits : Nat) (byte : UInt8) : List Nat :=
  (List.range (8 / bits)).map fun index =>
    byte.toNat / 2 ^ (8 - bits - index * bits) % 2 ^ bits

/-- The samples of two bytes each. -/
def unpackPairs : Bytes → List Nat
  | high :: low :: rest => (256 * high.toNat + low.toNat) :: unpackPairs rest
  | _ => []

/-- The samples of a row. -/
def unpack (bits : Nat) (row : Bytes) : List Nat :=
  if bits = 8 then row.map UInt8.toNat
  else if bits = 16 then unpackPairs row
  else row.flatMap (unpackByte bits)

variable {Single Double : Type} [Scalar Single] [Analysis Single] [Scalar Double]
  [Analysis Double] [Precision Single Double]

/-- The number of bytes of a row. -/
def rowBytes (image : SampleImage Single) : Nat :=
  (image.width * image.components * image.bits + 7) / 8

/-- The greatest sample. -/
def maxSample (image : SampleImage Single) : Single :=
  Scalar.ofNat (2 ^ image.bits - 1)

/-- The fault of an image whose data is shorter than its rows. -/
def shortData (image : SampleImage Single) : Fault :=
  .image (.shortData image.data.length image.width image.height)

/-- The first row of data, and the data after it. -/
def splitRow (image : SampleImage Single) (data : Bytes) : Outcome (Bytes × Bytes) :=
  let row := data.take image.rowBytes
  if row.length = image.rowBytes then .ok (row, data.drop image.rowBytes)
  else .error image.shortData

/-- The row with the given number. -/
def row (image : SampleImage Single) (index : Nat) : Outcome Bytes :=
  return (← image.splitRow (image.data.drop (index * image.rowBytes))).1

/-- The color space in which the samples are read: that of the image if it has as many
components, or else gray or the primary colors. -/
def readingSpace (image : SampleImage Single) (space : ColorSpace Single Double) :
    Outcome (ColorSpace Single Double) :=
  if image.components = space.componentCount then .ok space
  else if image.components = 1 then .ok .deviceGray
  else if image.components = 3 then .ok .deviceRgb
  else .error (.color (.imageComponents image.components space.componentCount))

/-- The intervals onto which samples are mapped.  Those of the image count only if they are
enough, and if its color space has as many components as it has samples a pixel. -/
def intervals (image : SampleImage Single) (space : ColorSpace Single Double) :
    List (Single × Single) :=
  match image.decode with
  | some decode =>
    if image.components = space.componentCount && 2 * image.components ≤ decode.length then
      pairs decode
    else defaultIntervals
  | none => defaultIntervals
where
  /-- The intervals of the space in which the samples are read. -/
  defaultIntervals : List (Single × Single) :=
    match image.readingSpace space with
    | .ok space => space.sampleIntervals image.bits
    | .error _ => []

/-- A sample as a component. -/
def component (image : SampleImage Single) (sample : Nat) (interval : Single × Single) : Single :=
  interval.1 + Scalar.ofNat sample * (interval.2 - interval.1) / image.maxSample

/-- The colors of the given number of pixels whose samples follow each other. -/
def pixelColors (image : SampleImage Single) (space : ColorSpace Single Double)
    (intervals : List (Single × Single)) : Nat → List Nat → Outcome (List (Rgb Single))
  | 0, _ => .ok []
  | count + 1, samples => do
    let components := List.zipWith image.component (samples.take image.components) intervals
    let color ← space.toRgb components
    let colors ← pixelColors image space intervals count (samples.drop image.components)
    return color :: colors

/-- The colors of the given number of rows. -/
def rowColors (image : SampleImage Single) (space : ColorSpace Single Double)
    (intervals : List (Single × Single)) : Nat → Bytes → Outcome (List (Rgb Single))
  | 0, _ => .ok []
  | count + 1, data => do
    let (row, rest) ← image.splitRow data
    let colors ← image.pixelColors space intervals image.width (unpack image.bits row)
    let others ← rowColors image space intervals count rest
    return colors ++ others

/-- The colors of an image in a color space. -/
def toRgb (image : SampleImage Single) (space : ColorSpace Single Double) :
    Outcome (RgbImage Single) := do
  let reading ← image.readingSpace space
  let pixels ← image.rowColors reading (image.intervals space) image.height image.data
  return ⟨image.width, image.height, pixels⟩

end SampleImage

namespace RgbImage

variable {Single Double : Type} [Scalar Single] [Scalar Double] [Precision Single Double]

/-- The gray levels of an image. -/
def toGray (image : RgbImage Single) : GrayImage :=
  ⟨image.width, image.height, image.pixels.map Rgb.grayByte⟩

/-- Whether a pixel is visibly colored. -/
def isColored (tolerance : Single) (image : RgbImage Single) : Bool :=
  image.pixels.any (Rgb.isColored tolerance)

end RgbImage
end Monochrome
