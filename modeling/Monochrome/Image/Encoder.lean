import Monochrome.Filter.Chain
import Monochrome.Image.Raster

/-!
# Encoding images

A converted image is encoded as it was before: the encoder is the chain of its filters, in the
order of decoding.  An encoder whose parameters are not supported gives way to Flate.  Samples of
photographic data cannot be encoded.
-/

namespace Monochrome

/-- One coding of an image. -/
inductive ImageCoding
  | filtered (filter : Filter) (parameters : Filter.Parameters)
  /-- Photographic data with the given number of samples a pixel and quality. -/
  | photographic (components quality : Nat)
deriving DecidableEq

/-- The codings of an image, in the order of decoding. -/
abbrev ImageEncoder :=
  List ImageCoding

namespace ImageCoding

/-- The filter of a coding. -/
def codec : ImageCoding → Filter
  | filtered filter _ => filter
  | photographic _ _ => .dct

/-- The coding of a filter. -/
def ofFilter (quality : Nat) (filter : Filter) (parameters : Filter.Parameters) : ImageCoding :=
  if filter = .dct then photographic 3 quality else .filtered filter parameters

/-- Encodes bytes. -/
def encodeBytes (coding : ImageCoding) (data : Bytes) : Outcome Bytes :=
  match coding with
  | filtered filter parameters => filter.encode parameters data
  | photographic _ _ => .error (.codec (.filter Filter.dct.name))

/-- The number of pixels of photographic data, whose width and height are of 32 bits. -/
def photographicSize (image : GrayImage) : Nat :=
  image.width % 2 ^ 32 * (image.height % 2 ^ 32)

/-- Encodes the gray levels of an image. -/
def encodeImage (coding : ImageCoding) (image : GrayImage) : Outcome Bytes :=
  match coding with
  | filtered filter parameters => filter.encode parameters image.data
  | photographic components _ =>
    if components ≠ 1 then .error (.parameters (.photographicComponents components))
    else if image.data.length < photographicSize image then .error (.image .rasterSize)
    else .error (.image .photographic)

/-- The parameters with which a coding is described, if they are not the usual ones. -/
def parameterObject? : ImageCoding → Option Object
  | filtered .lzw parameters =>
    if parameters.earlyChange then none
    else some (.dictionary (Dictionary.ofEntries [("EarlyChange", .integer 0)]))
  | _ => none

end ImageCoding

namespace ImageEncoder

/-- Reads the encoder that an image dictionary describes. -/
def read (document : Document) (entries : Dictionary) (quality : Nat) :
    Outcome ImageEncoder := do
  (← Filter.chain document entries).mapM fun (filter, dictionary) =>
    return ImageCoding.ofFilter quality filter (← Filter.parametersOf document dictionary)

/-- Plain Flate. -/
def flate : ImageEncoder :=
  [.filtered .flate {}]

/-- Whether a filter is among the codings. -/
def uses (encoder : ImageEncoder) (filter : Filter) : Bool :=
  encoder.any fun coding => coding.codec = filter

/-- Whether only gray images can be encoded so. -/
def isGrayOnly (encoder : ImageEncoder) : Bool :=
  encoder.uses .ccittFax || encoder.uses .jbig2

/-- The encoder in which photographic data has the given number of samples a pixel. -/
def withComponents (encoder : ImageEncoder) (components : Nat) : ImageEncoder :=
  encoder.map fun coding =>
    match coding with
    | .photographic _ quality => .photographic components quality
    | other => other

/-- Encodes the gray levels of an image. -/
def encode (encoder : ImageEncoder) (image : GrayImage) : Outcome Bytes :=
  match encoder.reverse with
  | [] => .ok image.data
  | innermost :: outer => do
    outer.foldlM (fun data coding => coding.encodeBytes data) (← innermost.encodeImage image)

/-- Encodes the gray levels of an image, with Flate if the parameters of the encoder are not
supported.  The result tells also the encoder that was used. -/
def encodeWithFallback (encoder : ImageEncoder) (image : GrayImage) :
    Outcome (Bytes × ImageEncoder) :=
  match encoder.encode image with
  | .ok data => .ok (data, encoder)
  | .error (.parameters _) => return (← flate.encode image, flate)
  | .error fault => .error fault

/-- The name or names of the filters, if there are any. -/
def filterObject? (encoder : ImageEncoder) : Option Object :=
  match encoder with
  | [] => none
  | [coding] => some (.named coding.codec.name)
  | codings => some (.array (codings.map fun coding => .named coding.codec.name))

/-- The parameters of the filters, if one of them has some. -/
def parameterObject? (encoder : ImageEncoder) : Option Object :=
  match encoder with
  | [coding] => coding.parameterObject?
  | codings =>
    if codings.all (·.parameterObject?.isNone) then none
    else some (.array (codings.map fun coding => coding.parameterObject?.getD .null))

end ImageEncoder
end Monochrome
