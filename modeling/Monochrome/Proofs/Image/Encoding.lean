import Mathlib.Data.List.Forall2
import Monochrome.Image.Encoder
import Monochrome.Proofs.Filter.Ascii85
import Monochrome.Proofs.Filter.AsciiHex
import Monochrome.Proofs.Filter.Deflate.RoundTrip
import Monochrome.Proofs.Filter.Lzw
import Monochrome.Proofs.Filter.RunLength
import Monochrome.Proofs.Outcome
import Monochrome.Proofs.Text.Utf8

/-!
# Encoded images are decoded again

An image is encoded from the last of its codings to the first, and decoded from the first to the
last.  The codings are described by the names of their filters and by their parameters, each at its
place or all left out, and are found again from that description.
-/

namespace Monochrome

open Outcome

variable {document : Document} {dictionary : Dictionary}

/-! ## One filter -/

namespace Filter

variable {filter : Filter} {parameters reading : Parameters}

/-- Decompressed data stays as it is where no predictor is named. -/
theorem finishDecoding_some {fault : ImageFault} (isPlain : reading.hasPredictor = false)
    (data : Bytes) : finishDecoding reading fault (some data) = .ok data := by
  rw [finishDecoding, isPlain]
  rfl

/-- What a filter encodes without a predictor is decoded with parameters that tell no predictor
and the same change of width. -/
theorem decode_of_encode (isBytes : filter.isImageCodec = false)
    (isPlain : filter = .flate ∨ filter = .lzw → parameters.hasPredictor = false)
    (readsPlain : reading.hasPredictor = false)
    (sameChange : filter = .lzw → reading.earlyChange = parameters.earlyChange) (data : Bytes) :
    ∃ encoded, filter.encode parameters data = .ok encoded ∧
      filter.decode reading encoded = .ok data := by
  cases filter with
  | flate =>
      refine ⟨Deflate.encode data, by rw [encode, isPlain (.inl rfl)]; rfl, ?_⟩
      rw [decode, Deflate.decode_encode, finishDecoding_some readsPlain]
  | lzw =>
      refine ⟨Lzw.encode parameters.earlyChange data, by rw [encode, isPlain (.inr rfl)]; rfl, ?_⟩
      rw [decode, sameChange rfl, Lzw.decode_encode, finishDecoding_some readsPlain]
  | runLength => exact ⟨_, rfl, congrArg Except.ok (RunLength.decode_encode data)⟩
  | asciiHex => exact ⟨_, rfl, congrArg Except.ok (AsciiHex.decode_encode data)⟩
  | ascii85 => exact ⟨_, rfl, congrArg Except.ok (Ascii85.decode_encode data)⟩
  | dct => cases isBytes
  | jpx => cases isBytes
  | ccittFax => cases isBytes
  | jbig2 => cases isBytes

/-- The text of a filter's name is the name. -/
theorem ofBytes_name (filter : Filter) : Text.ofBytes (Bytes.ascii filter.name) = filter.name := by
  refine Text.ofBytes_ascii ?_
  cases filter <;> decide +kernel

end Filter

/-! ## One coding -/

namespace ImageCoding

variable {coding : ImageCoding}

/-- Whether a coding takes bytes to bytes. -/
def IsOfBytes (coding : ImageCoding) : Prop :=
  coding.codec.isImageCodec = false

/-- Whether a coding has a predictor, which is undone on reading only. -/
def isPredicted : ImageCoding → Bool
  | filtered .flate parameters | filtered .lzw parameters => parameters.hasPredictor
  | _ => false

/-- The dictionary of the parameters with which a coding is described. -/
def parameterEntries? : ImageCoding → Option Dictionary
  | filtered .lzw parameters =>
    if parameters.earlyChange then none
    else some (Dictionary.ofEntries [("EarlyChange", .integer 0)])
  | _ => none

theorem parameterObject?_eq (coding : ImageCoding) :
    coding.parameterObject? = coding.parameterEntries?.map .dictionary := by
  cases coding with
  | photographic components quality => rfl
  | filtered filter parameters =>
      cases filter with
      | lzw =>
          rw [parameterObject?, parameterEntries?]
          split <;> rfl
      | _ => rfl

/-- A coding of bytes encodes an image as its bytes. -/
theorem IsOfBytes.encodeImage (isOfBytes : coding.IsOfBytes) (image : GrayImage) :
    coding.encodeImage image = coding.encodeBytes image.data := by
  cases coding with
  | filtered filter parameters => rfl
  | photographic components quality => cases isOfBytes

/-- A coding with a predictor does not encode. -/
theorem encodeBytes_isPredicted (isPredicted : coding.isPredicted = true) (data : Bytes) :
    ∃ fault, coding.encodeBytes data = .error (.parameters fault) := by
  unfold ImageCoding.isPredicted at isPredicted
  split at isPredicted
  · exact ⟨_, by rw [encodeBytes, Filter.encode, isPredicted]; rfl⟩
  · exact ⟨_, by rw [encodeBytes, Filter.encode, isPredicted]; rfl⟩
  · cases isPredicted

/-- The parameters of a description are those that matter to the filter. -/
theorem parametersOf_parameterEntries? (document : Document) (coding : ImageCoding) :
    ∃ reading, Filter.parametersOf document coding.parameterEntries? = .ok reading ∧
      reading.hasPredictor = false ∧
      ∀ parameters, coding = .filtered .lzw parameters →
        reading.earlyChange = parameters.earlyChange := by
  unfold parameterEntries?
  split
  next parameters =>
    split
    next early => exact ⟨{}, rfl, rfl, by rintro _ ⟨⟩; exact early.symm⟩
    next late =>
      refine ⟨{ earlyChange := false }, by rfl, rfl, ?_⟩
      rintro _ ⟨⟩
      exact (Bool.eq_false_iff.mpr late).symm
  next other =>
    refine ⟨{}, rfl, rfl, ?_⟩
    rintro parameters rfl
    exact absurd rfl (other parameters)

/-- What a coding without a predictor encodes is decoded as it is described. -/
theorem decode_of_encodeBytes (isOfBytes : coding.IsOfBytes) (isPlain : coding.isPredicted = false)
    (document : Document) (data : Bytes) :
    ∃ encoded reading, coding.encodeBytes data = .ok encoded ∧
      Filter.parametersOf document coding.parameterEntries? = .ok reading ∧
      coding.codec.decode reading encoded = .ok data := by
  obtain ⟨reading, isReading, readsPlain, sameChange⟩ :=
    parametersOf_parameterEntries? document coding
  cases coding with
  | photographic components quality => cases isOfBytes
  | filtered filter parameters =>
      have plain : filter = .flate ∨ filter = .lzw → parameters.hasPredictor = false := by
        rintro (rfl | rfl)
        · exact isPlain
        · exact isPlain
      obtain ⟨encoded, isEncoded, isDecoded⟩ :=
        Filter.decode_of_encode isOfBytes plain readsPlain
          (fun isLzw => sameChange parameters (isLzw ▸ rfl)) data
      exact ⟨encoded, reading, isEncoded, isReading, isDecoded⟩

end ImageCoding

/-! ## A chain of codings -/

namespace ImageEncoder

variable {encoder : ImageEncoder}

/-- Whether all codings take bytes to bytes. -/
def IsOfBytes (encoder : ImageEncoder) : Prop :=
  ∀ coding ∈ encoder, coding.IsOfBytes

/-- The encoder that writes the images of an encoder: plain Flate for one with a predictor. -/
def writing (encoder : ImageEncoder) : ImageEncoder :=
  if encoder.any ImageCoding.isPredicted then flate else encoder

/-- The filters and parameter dictionaries with which the codings are described. -/
def described (encoder : ImageEncoder) : List (Filter × Option Dictionary) :=
  encoder.map fun coding => (coding.codec, coding.parameterEntries?)

/-- Codings of bytes encode an image as its bytes, from the last to the first. -/
theorem IsOfBytes.encode (isOfBytes : encoder.IsOfBytes) (image : GrayImage) :
    encoder.encode image =
      encoder.foldrM (fun coding data => coding.encodeBytes data) image.data := by
  rw [← List.foldlM_reverse]
  have reversed : ∀ coding ∈ encoder.reverse, coding.IsOfBytes := fun coding among =>
    isOfBytes coding (List.mem_reverse.mp among)
  rw [ImageEncoder.encode]
  cases isReversed : encoder.reverse with
  | nil => rfl
  | cons innermost outer =>
      rw [isReversed] at reversed
      dsimp only
      rw [List.foldlM_cons, (reversed innermost List.mem_cons_self).encodeImage]

/-- What codings without a predictor encode is decoded as they are described. -/
theorem decodeChain_of_foldrM (isOfBytes : encoder.IsOfBytes)
    (isPlain : ∀ coding ∈ encoder, coding.isPredicted = false) (data : Bytes) :
    ∃ encoded, encoder.foldrM (fun coding data => coding.encodeBytes data) data = .ok encoded ∧
      ∀ document, Filter.decodeChain document encoder.described encoded = .ok ⟨data, none⟩ := by
  induction encoder with
  | nil => exact ⟨data, rfl, fun _ => rfl⟩
  | cons coding inner inductionHypothesis =>
      obtain ⟨middle, isMiddle, isInner⟩ := inductionHypothesis
        (fun other among => isOfBytes other (List.mem_cons_of_mem _ among))
        (fun other among => isPlain other (List.mem_cons_of_mem _ among))
      have ofBytes := isOfBytes coding List.mem_cons_self
      have plain := isPlain coding List.mem_cons_self
      obtain ⟨encoded, _, isEncoded, -, -⟩ :=
        ImageCoding.decode_of_encodeBytes ofBytes plain default middle
      refine ⟨encoded, ?_, fun document => ?_⟩
      · rw [List.foldrM_cons, isMiddle]
        exact isEncoded
      · obtain ⟨again, reading, isAgain, isReading, isDecoded⟩ :=
          ImageCoding.decode_of_encodeBytes ofBytes plain document middle
        cases isEncoded.symm.trans isAgain
        have noCodec : ¬coding.codec.isImageCodec = true := Bool.eq_false_iff.mp ofBytes
        rw [described, List.map_cons, Filter.decodeChain.eq_def]
        dsimp only
        rw [if_neg noCodec, isReading]
        show (coding.codec.decode reading encoded >>= _) = _
        rw [isDecoded]
        exact isInner document

/-- Codings of which one has a predictor do not encode. -/
theorem foldrM_isPredicted (isOfBytes : encoder.IsOfBytes)
    (isPredicted : encoder.any ImageCoding.isPredicted = true) (data : Bytes) :
    ∃ fault, encoder.foldrM (fun coding data => coding.encodeBytes data) data =
      .error (.parameters fault) := by
  induction encoder with
  | nil => cases isPredicted
  | cons coding inner inductionHypothesis =>
      have innerOfBytes : IsOfBytes inner := fun other among =>
        isOfBytes other (List.mem_cons_of_mem _ among)
      rw [List.foldrM_cons]
      by_cases inside : inner.any ImageCoding.isPredicted = true
      · obtain ⟨fault, failed⟩ := inductionHypothesis innerOfBytes inside
        exact ⟨fault, by rw [failed]; rfl⟩
      · have here : coding.isPredicted = true := by
          rw [List.any_cons, Bool.or_eq_true] at isPredicted
          exact isPredicted.resolve_right inside
        have plain : ∀ other ∈ inner, other.isPredicted = false := fun other among =>
          Bool.eq_false_iff.mpr fun predicted => inside (List.any_eq_true.mpr ⟨other, among, predicted⟩)
        obtain ⟨middle, isMiddle, -⟩ := decodeChain_of_foldrM innerOfBytes plain data
        obtain ⟨fault, failed⟩ := ImageCoding.encodeBytes_isPredicted here middle
        exact ⟨fault, by rw [isMiddle]; exact failed⟩

theorem isOfBytes_flate : IsOfBytes flate := by
  intro coding among
  cases List.mem_singleton.mp among
  rfl

theorem isPlain_flate : ∀ coding ∈ flate, coding.isPredicted = false := by
  intro coding among
  cases List.mem_singleton.mp among
  rfl

/-- An image is encoded by the encoder or by plain Flate, and decoded as what was used is
described. -/
theorem decodeChain_of_encodeWithFallback (isOfBytes : encoder.IsOfBytes) (image : GrayImage) :
    ∃ data, encoder.encodeWithFallback image = .ok (data, encoder.writing) ∧
      ∀ document, Filter.decodeChain document encoder.writing.described data =
        .ok ⟨image.data, none⟩ := by
  rw [encodeWithFallback, isOfBytes.encode, writing]
  by_cases isPredicted : encoder.any ImageCoding.isPredicted = true
  · obtain ⟨fault, failed⟩ := foldrM_isPredicted isOfBytes isPredicted image.data
    obtain ⟨data, isData, isDecoded⟩ :=
      decodeChain_of_foldrM isOfBytes_flate isPlain_flate image.data
    refine ⟨data, ?_, ?_⟩
    · rw [failed, if_pos isPredicted, isOfBytes_flate.encode, isData]
      rfl
    · rw [if_pos isPredicted]
      exact isDecoded
  · have isPlain : ∀ coding ∈ encoder, coding.isPredicted = false := fun coding among =>
      Bool.eq_false_iff.mpr fun predicted =>
        isPredicted (List.any_eq_true.mpr ⟨coding, among, predicted⟩)
    obtain ⟨data, isData, isDecoded⟩ := decodeChain_of_foldrM isOfBytes isPlain image.data
    refine ⟨data, ?_, ?_⟩
    · rw [isData, if_neg isPredicted]
    · rw [if_neg isPredicted]
      exact isDecoded

/-! ## The description of a chain -/

/-- Whether a dictionary describes an encoder: it holds the filters and the parameters under their
full keys, and nothing under the abbreviated ones where there are none. -/
structure Describes (dictionary : Dictionary) (encoder : ImageEncoder) : Prop where
  filter : dictionary.get? "Filter" = encoder.filterObject?
  parameters : dictionary.get? "DecodeParms" = encoder.parameterObject?
  noFilter : encoder.filterObject? = none → dictionary.get? "F" = none
  noParameters : encoder.parameterObject? = none → dictionary.get? "DP" = none

/-- What is under the first of two keys is read, or nothing where nothing is under both. -/
theorem eitherEntry?_of_get? {first second : String} {found : Option Object}
    (isFirst : dictionary.get? first = found)
    (isDirect : ∀ value, found = some value → document.resolve value = .ok value)
    (noSecond : found = none → dictionary.get? second = none) :
    document.eitherEntry? dictionary first second = .ok found := by
  rw [Document.eitherEntry?, Document.entry?, Document.entry?, isFirst]
  cases found with
  | none =>
      rw [noSecond rfl]
      rfl
  | some value =>
      dsimp only
      rw [isDirect value rfl]
      rfl

/-- The names of filters are no references. -/
theorem resolve_filterObject? {value : Object} (isFilter : encoder.filterObject? = some value) :
    document.resolve value = .ok value := by
  unfold filterObject? at isFilter
  split at isFilter <;> cases isFilter <;> rfl

/-- Whether a document reads a dictionary as the description of an encoder, whichever keys hold the
filters and the parameters. -/
structure DescribesIn (document : Document) (dictionary : Dictionary) (encoder : ImageEncoder) :
    Prop where
  filter : document.eitherEntry? dictionary "Filter" "F" = .ok encoder.filterObject?
  parameters : document.eitherEntry? dictionary "DecodeParms" "DP" = .ok encoder.parameterObject?

/-- The names of the filters of a description are those of the codings. -/
theorem DescribesIn.names (describes : DescribesIn document dictionary encoder) :
    Filter.names document dictionary = .ok (encoder.map fun coding => coding.codec.name) := by
  rw [Filter.names, describes.filter]
  match encoder with
  | [] => rfl
  | [coding] => exact congrArg (fun name => Except.ok [name]) (Filter.ofBytes_name coding.codec)
  | first :: second :: rest =>
      show List.mapM _ (List.map _ _) = _
      refine mapM_eq_ok.mpr (List.forall₂_map_left_iff.mpr (List.forall₂_map_right_iff.mpr ?_))
      refine List.forall₂_same.mpr fun coding _ => ?_
      exact congrArg Except.ok (Filter.ofBytes_name coding.codec)

/-- The parameters of codings are no references. -/
theorem resolve_parameterObject? {value : Object}
    (isParameters : encoder.parameterObject? = some value) : document.resolve value = .ok value := by
  unfold parameterObject? at isParameters
  split at isParameters
  next coding =>
    rw [ImageCoding.parameterObject?_eq] at isParameters
    obtain ⟨entries, -, rfl⟩ := Option.map_eq_some_iff.mp isParameters
    rfl
  next =>
    split at isParameters
    · cases isParameters
    · cases isParameters
      rfl

/-- Without parameters no coding has some. -/
theorem map_parameterEntries?_of_none (isNone : encoder.parameterObject? = none) :
    encoder.map ImageCoding.parameterEntries? = List.replicate encoder.length none := by
  have each : ∀ coding ∈ encoder, coding.parameterObject? = none := by
    unfold parameterObject? at isNone
    split at isNone
    next coding =>
      intro other among
      cases List.mem_singleton.mp among
      exact isNone
    next =>
      split at isNone
      next all =>
        intro other among
        exact Option.isNone_iff_eq_none.mp (List.all_eq_true.mp all other among)
      next => cases isNone
  refine List.eq_replicate_iff.mpr ⟨List.length_map _, ?_⟩
  intro entries among
  obtain ⟨coding, isCoding, rfl⟩ := List.mem_map.mp among
  have none := each coding isCoding
  rwa [ImageCoding.parameterObject?_eq, Option.map_eq_none_iff] at none

/-- The parameter dictionaries of a description are those of the codings. -/
theorem DescribesIn.parameterDictionaries (describes : DescribesIn document dictionary encoder) :
    Filter.parameterDictionaries document dictionary encoder.length =
      .ok (encoder.map ImageCoding.parameterEntries?) := by
  rw [Filter.parameterDictionaries, describes.parameters]
  cases isParameters : encoder.parameterObject? with
  | none => exact congrArg Except.ok (map_parameterEntries?_of_none isParameters).symm
  | some value =>
      unfold parameterObject? at isParameters
      split at isParameters
      next coding =>
        rw [ImageCoding.parameterObject?_eq] at isParameters
        obtain ⟨entries, isEntries, rfl⟩ := Option.map_eq_some_iff.mp isParameters
        rw [List.map_singleton, isEntries]
        rfl
      next =>
        split at isParameters
        · cases isParameters
        · cases isParameters
          refine congrArg Except.ok ?_
          rw [List.map_map]
          refine List.map_congr_left fun coding _ => ?_
          rw [Function.comp_apply, ImageCoding.parameterObject?_eq]
          cases coding.parameterEntries? <;> rfl

/-- A description under the full keys is read in every document. -/
theorem Describes.describesIn (describes : Describes dictionary encoder) :
    DescribesIn document dictionary encoder where
  filter := eitherEntry?_of_get? describes.filter (fun _ => resolve_filterObject?)
    describes.noFilter
  parameters := eitherEntry?_of_get? describes.parameters (fun _ => resolve_parameterObject?)
    describes.noParameters

/-- A description is read as the codings that it describes. -/
theorem DescribesIn.chain (describes : DescribesIn document dictionary encoder) :
    Filter.chain document dictionary = .ok encoder.described := by
  have sameLength : (encoder.map fun coding => coding.codec.name).length = encoder.length :=
    List.length_map _
  rw [Filter.chain, describes.names]
  show (Filter.parameterDictionaries document dictionary
    (encoder.map fun coding => coding.codec.name).length >>= _) = _
  rw [sameLength, describes.parameterDictionaries]
  refine mapM_eq_ok.mpr (List.forall₂_iff_get.mpr ⟨by simp [described], ?_⟩)
  intro index isName isDescribed
  have within : index < encoder.length := by simpa [described] using isDescribed
  simp [described, within]

/-- The encoder of filters that take bytes to bytes does so. -/
theorem isOfBytes_of_read {names : List String} {quality : Nat}
    (isNamed : Filter.names document dictionary = .ok names)
    (ofBytes : ∀ name ∈ names, ∃ filter, Filter.ofName? name = some filter ∧
      filter.isImageCodec = false)
    (isRead : ImageEncoder.read document dictionary quality = .ok encoder) : encoder.IsOfBytes := by
  intro coding among
  obtain ⟨chain, isChain, isCodings⟩ := bind_eq_ok.mp isRead
  obtain ⟨⟨filter, parameters⟩, isMember, isCoding⟩ := exists_of_mapM isCodings among
  obtain ⟨names', isNames, isChain⟩ := bind_eq_ok.mp isChain
  cases isNamed.symm.trans isNames
  obtain ⟨dictionaries, -, isChain⟩ := bind_eq_ok.mp isChain
  obtain ⟨⟨name, index⟩, isIndexed, isFilter⟩ := exists_of_mapM isChain isMember
  obtain ⟨_, isFound, isBytes⟩ := ofBytes name (List.fst_mem_of_mem_zipIdx isIndexed)
  dsimp only at isFilter
  rw [isFound] at isFilter
  cases isFilter
  obtain ⟨reading, -, isCoding⟩ := bind_eq_ok.mp isCoding
  cases isCoding
  have noPhotograph : filter ≠ .dct := by
    rintro rfl
    cases isBytes
  rw [ImageCoding.ofFilter, if_neg noPhotograph]
  exact isBytes

/-- What an encoder of bytes writes is read back with the description of what was used. -/
theorem IsOfBytes.decode_of_describesIn (isOfBytes : encoder.IsOfBytes) (image : GrayImage) :
    ∃ data, encoder.encodeWithFallback image = .ok (data, encoder.writing) ∧
      ∀ (other : Document) (entries : Dictionary), DescribesIn other entries encoder.writing →
        Stream.decode other ⟨entries, data⟩ = .ok ⟨image.data, none⟩ := by
  obtain ⟨data, isData, isDecoded⟩ := decodeChain_of_encodeWithFallback isOfBytes image
  refine ⟨data, isData, fun other entries describes => ?_⟩
  rw [Stream.decode, describes.chain]
  exact isDecoded other

/-- It is read back in every document with a description under the full keys. -/
theorem IsOfBytes.decode_of_describes (isOfBytes : encoder.IsOfBytes) (image : GrayImage) :
    ∃ data, encoder.encodeWithFallback image = .ok (data, encoder.writing) ∧
      ∀ (other : Document) (entries : Dictionary), Describes entries encoder.writing →
        Stream.decode other ⟨entries, data⟩ = .ok ⟨image.data, none⟩ := by
  obtain ⟨data, isData, isDecoded⟩ := isOfBytes.decode_of_describesIn image
  exact ⟨data, isData, fun other entries describes => isDecoded other entries describes.describesIn⟩

end ImageEncoder
end Monochrome
