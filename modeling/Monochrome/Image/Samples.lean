import Monochrome.Image.Encoder

/-!
# Image data

What image objects and inline images have in common: their dimensions, the depth of their
samples, and their decoded data.
-/

namespace Monochrome
namespace SampleImage

/-- The numbers of bits that a sample may have. -/
def depths : List Int :=
  [1, 2, 4, 8, 16]

/-- The number of bits of a sample, eight if none is given. -/
def depthOf (given : Option Int64) : Outcome Nat :=
  let bits := (given.getD 8).toInt
  if depths.contains bits then .ok bits.toNat else .error (.image (.sampleBits bits))

/-- A dimension of an image, under its full or abbreviated key. -/
def dimension (document : Document) (entries : Dictionary) (full short : String) : Outcome Nat := do
  match (← document.eitherEntry? entries full short).bind Object.integer? with
  | some length =>
    if 0 ≤ length then return length.toInt.toNat else throw (.image (.noDimension full))
  | none => throw (.image (.noDimension full))

/-- The intervals onto which an image maps its samples, if it has some. -/
def decodeArray? (document : Document) (entries : Dictionary) :
    Outcome (Option (List Float32)) := do
  (← document.eitherEntry? entries "Decode" "D").mapM document.numbers

/-- Decodes the data of an image.  Photographic data and other image codecs are not decoded. -/
def decodeStream (document : Document) (stream : Stream)
    (width height components bits : Nat) : Outcome (SampleImage Float32) := do
  let decoded ← stream.decode document
  let decode ← decodeArray? document stream.entries
  match decoded.codec with
  | none =>
    return {
      width := width
      height := height
      bits := bits
      components := components
      data := decoded.data
      decode := decode }
  | some .dct => throw (.image .photographic)
  | some codec => throw (.codec (.filter codec.name))

end SampleImage
end Monochrome
