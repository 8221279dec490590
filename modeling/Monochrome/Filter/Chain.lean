import Monochrome.Filter.Ascii85
import Monochrome.Filter.AsciiHex
import Monochrome.Filter.Basic
import Monochrome.Filter.Deflate.Reading
import Monochrome.Filter.Deflate.Writing
import Monochrome.Filter.Lzw
import Monochrome.Filter.Predictor
import Monochrome.Filter.RunLength

/-!
# Filter chains

A stream names the filters that decode its data, first to last, with parameters for each.
Both the full keys and the abbreviated ones are read.  A chain may end in an image codec, which
is then left to the reader of the image.
-/

namespace Monochrome
namespace Filter

/-- Undoes the predictor that the parameters name. -/
def undoPredictor (parameters : Parameters) (data : Bytes) : Outcome Bytes :=
  let pixelBits := parameters.colors * parameters.bits
  let pixelBytes := max ((pixelBits + 7) / 8) 1
  let rowBytes := (parameters.columns * pixelBits + 7) / 8
  if parameters.predictor = 2 then
    if parameters.bits = 8 then .ok (Predictor.undoDifferences rowBytes pixelBytes data)
    else .error (.parameters (.differenceBits parameters.bits))
  else if 10 ≤ parameters.predictor && parameters.predictor ≤ 15 then
    .ok (Predictor.undo rowBytes pixelBytes data)
  else .error (.parameters (.unknownPredictor parameters.predictor))

/-- Decompressed data with its predictor undone. -/
def finishDecoding (parameters : Parameters) (fault : ImageFault) :
    Option Bytes → Outcome Bytes
  | none => .error (.image fault)
  | some data =>
    if parameters.hasPredictor then undoPredictor parameters data else .ok data

/-- Decodes data with one filter. -/
def decode (filter : Filter) (parameters : Parameters) (data : Bytes) : Outcome Bytes :=
  match filter with
  | flate => finishDecoding parameters .inflate (Deflate.decode data)
  | lzw => finishDecoding parameters .lzw (Lzw.decode parameters.earlyChange data)
  | runLength => .ok (RunLength.decode data)
  | asciiHex => .ok (AsciiHex.decode data)
  | ascii85 => .ok (Ascii85.decode data)
  | codec => .error (.codec (.filter codec.name))

/-- Encodes data with one filter.  No predictor is applied on writing. -/
def encode (filter : Filter) (parameters : Parameters) (data : Bytes) : Outcome Bytes :=
  let refusal : Outcome Bytes :=
    .error (.parameters (.predictorOnWriting filter.name parameters.predictor))
  match filter with
  | flate => if parameters.hasPredictor then refusal else .ok (Deflate.encode data)
  | lzw =>
    if parameters.hasPredictor then refusal else .ok (Lzw.encode parameters.earlyChange data)
  | runLength => .ok (RunLength.encode data)
  | asciiHex => .ok (AsciiHex.encode data)
  | ascii85 => .ok (Ascii85.encode data)
  | codec => .error (.codec (.filter codec.name))

/-- The names of the filters of a dictionary. -/
def names (document : Document) (dictionary : Dictionary) : Outcome (List String) := do
  match ← document.eitherEntry? dictionary "Filter" "F" with
  | none | some .null => return []
  | some (.name bytes) => return [Text.ofBytes bytes]
  | some (.array items) => items.mapM fun item => do (← document.resolve item).asText
  | some _ => throw (.mismatch .filterName)

/-- The parameter dictionaries of a dictionary, one for each of the given number of filters or
as many as are there.  Whatever is no dictionary counts as missing. -/
def parameterDictionaries (document : Document) (dictionary : Dictionary) (count : Nat) :
    Outcome (List (Option Dictionary)) := do
  match ← document.eitherEntry? dictionary "DecodeParms" "DP" with
  | none | some .null => return List.replicate count none
  | some (.dictionary entries) => return [some entries]
  | some (.array items) =>
    return items.map fun item =>
      match document.resolve item with
      | .ok (.dictionary entries) => some entries
      | _ => none
  | some _ => throw (.mismatch .decodeParameters)

/-- The filters of a dictionary with their parameter dictionaries, in the order of decoding. -/
def chain (document : Document) (dictionary : Dictionary) :
    Outcome (List (Filter × Option Dictionary)) := do
  let names ← names document dictionary
  let parameters ← parameterDictionaries document dictionary names.length
  names.zipIdx.mapM fun (name, index) =>
    match ofName? name with
    | some filter => .ok (filter, (parameters[index]?).join)
    | none => .error (.codec (.filter name))

/-- The parameters of a filter of a chain. -/
def parametersOf (document : Document) : Option Dictionary → Outcome Parameters
  | some dictionary => Parameters.ofDictionary document dictionary
  | none => .ok {}

/-- Data decoded as far as the image codec that may end its chain. -/
structure Decoded where
  data : Bytes
  codec : Option Filter

/-- Decodes data with a chain of filters. -/
def decodeChain (document : Document) : List (Filter × Option Dictionary) → Bytes →
    Outcome Decoded
  | [], data => .ok ⟨data, none⟩
  | (filter, dictionary) :: rest, data =>
    if filter.isImageCodec then
      match rest with
      | [] => .ok ⟨data, some filter⟩
      | _ :: _ => .error (.codec (.notLast filter.name))
    else do
      let parameters ← parametersOf document dictionary
      decodeChain document rest (← filter.decode parameters data)

end Filter

namespace Stream

/-- The data of a stream, decoded as far as an image codec. -/
def decode (document : Document) (stream : Stream) : Outcome Filter.Decoded := do
  Filter.decodeChain document (← Filter.chain document stream.entries) stream.data

/-- The data of a stream that is no image, fully decoded. -/
def content (document : Document) (stream : Stream) : Outcome Bytes := do
  let decoded ← stream.decode document
  match decoded.codec with
  | none => return decoded.data
  | some codec => throw (.codec (.filter codec.name))

/-- The stream with other data, compressed or plain, in place of its own. -/
def setContent (stream : Stream) (content : Bytes) (compress : Bool) : Stream :=
  let entries := (stream.entries.remove "DecodeParms").remove "Filter"
  if compress then
    Stream.ofData (entries.set "Filter" (.named Filter.flate.name)) (Deflate.encode content)
  else Stream.ofData entries content

end Stream
end Monochrome
