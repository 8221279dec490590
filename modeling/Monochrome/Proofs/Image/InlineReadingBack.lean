import Monochrome.Image.Inline
import Monochrome.Proofs.Content.RoundTrip
import Monochrome.Proofs.Image.ReadingBack

/-!
# A gray inline image is read back

A gray inline image is described by abbreviated keys only, and keeps no entry of the image that it
replaces that could describe samples.  Content that holds it is read back as one inline image with
the same entries, up to the length of its data.  Its samples are the gray levels, if and only if a
machine integer can tell each of its dimensions.
-/

namespace Monochrome

open Outcome

/-! ## Tables that are built by inserting -/

namespace Table

variable {κ α : Type} [DecidableEq κ] {table : Table κ α} {key : κ}

/-- The keys after one was inserted are those before and the new one. -/
theorem mem_keys_insertIn {value : α} {entries : List (κ × α)} {other : κ}
    (isKey : other ∈ (insertIn key value entries).map Prod.fst) :
    other = key ∨ other ∈ entries.map Prod.fst := by
  induction entries with
  | nil => exact .inl (List.mem_singleton.mp isKey)
  | cons first rest inductionHypothesis =>
      rw [insertIn] at isKey
      split at isKey
      · exact .inr isKey
      · rcases List.mem_cons.mp isKey with isFirst | later
        · exact .inr (isFirst ▸ List.mem_cons_self)
        · exact (inductionHypothesis later).imp id (List.mem_cons_of_mem _)

/-- Inserting a key leaves the keys distinct. -/
theorem HasDistinctKeys.insert (distinct : table.HasDistinctKeys) (key : κ) (value : α) :
    (table.insert key value).HasDistinctKeys := by
  obtain ⟨entries⟩ := table
  show ((insertIn key value entries).map Prod.fst).Nodup
  have distinct : (entries.map Prod.fst).Nodup := distinct
  induction entries with
  | nil => exact List.pairwise_singleton _ _
  | cons first rest inductionHypothesis =>
      obtain ⟨isNew, distinctRest⟩ := List.nodup_cons.mp distinct
      rw [insertIn]
      split
      · exact distinct
      next differs =>
        refine List.nodup_cons.mpr ⟨fun again => ?_, inductionHypothesis distinctRest distinctRest⟩
        rcases mem_keys_insertIn again with same | later
        · exact differs same
        · exact isNew later

/-- Inserting one key after the other leaves the keys distinct. -/
theorem HasDistinctKeys.foldl_insert (distinct : table.HasDistinctKeys) (entries : List (κ × α)) :
    (entries.foldl (fun table (key, value) => table.insert key value) table).HasDistinctKeys := by
  induction entries generalizing table with
  | nil => exact distinct
  | cons first rest inductionHypothesis => exact inductionHypothesis (distinct.insert _ _)

/-- The table of a list has distinct keys. -/
theorem hasDistinctKeys_ofList (entries : List (κ × α)) : (ofList entries).HasDistinctKeys :=
  have noKeys : (empty : Table κ α).HasDistinctKeys := List.nodup_nil
  noKeys.foldl_insert entries

end Table

namespace InlineImage

variable {document : Document} {scope : Scope} {image stored again : Stream} {gray : GrayImage}
  {encoder : ImageEncoder} {data : Bytes} {key : String}

/-! ## The entries of a gray inline image -/

/-- The entries that a gray inline image is described with. -/
def grayEntries (gray : GrayImage) (encoder : ImageEncoder) : List (String × Object) :=
  [("W", .integer (Int64.ofNat gray.width)), ("H", .integer (Int64.ofNat gray.height)),
    ("CS", .named "DeviceGray"), ("BPC", .integer 8)] ++
    (encoder.filterObject?.toList.map (("F", ·)) ++ encoder.parameterObject?.toList.map (("DP", ·)))

/-- The entries of an inline image that do not describe its samples. -/
def otherEntries (image : Stream) : List (Bytes × Object) :=
  image.entries.entries.filter fun (key, _) => !(sampleKeys.map Bytes.ascii).contains key

/-- The gray inline image with the given data in the place of an image. -/
def ofGray (image : Stream) (gray : GrayImage) (encoder : ImageEncoder) (data : Bytes) : Stream :=
  Stream.ofData ((otherEntries image).foldl
    (fun (entries : Dictionary) (key, value) => entries.insert key value)
    (Dictionary.ofEntries (grayEntries gray encoder))) data

/-- The levels of gray are stored as they are encoded, described by the encoder that was used. -/
theorem withGray_of_encodeWithFallback {used : ImageEncoder}
    (encoded : encoder.encodeWithFallback gray = .ok (data, used)) :
    withGray image gray encoder = .ok (ofGray image gray used data) := by
  rw [withGray, encoded]
  rfl

/-- The value under a key of the description of a gray inline image. -/
def grayEntry (gray : GrayImage) (encoder : ImageEncoder) (key : String) : Option Object :=
  Table.findIn (Bytes.ascii key)
    ((grayEntries gray encoder).map fun (key, value) => (Bytes.ascii key, value))

/-- The description of a gray inline image tells everything under abbreviated keys. -/
theorem grayEntry_short (gray : GrayImage) (encoder : ImageEncoder) :
    grayEntry gray encoder "W" = some (.integer (Int64.ofNat gray.width)) ∧
      grayEntry gray encoder "H" = some (.integer (Int64.ofNat gray.height)) ∧
      grayEntry gray encoder "CS" = some (.named "DeviceGray") ∧
      grayEntry gray encoder "BPC" = some (.integer 8) ∧
      grayEntry gray encoder "F" = encoder.filterObject? ∧
      grayEntry gray encoder "DP" = encoder.parameterObject? ∧
      grayEntry gray encoder "D" = none := by
  simp only [grayEntry, grayEntries]
  cases encoder.filterObject? <;> cases encoder.parameterObject? <;> simp +decide [Table.findIn]

/-- It tells nothing under full keys. -/
theorem grayEntry_full (gray : GrayImage) (encoder : ImageEncoder) :
    grayEntry gray encoder "Width" = none ∧ grayEntry gray encoder "Height" = none ∧
      grayEntry gray encoder "Filter" = none ∧ grayEntry gray encoder "DecodeParms" = none ∧
      grayEntry gray encoder "Decode" = none := by
  simp only [grayEntry, grayEntries]
  cases encoder.filterObject? <;> cases encoder.parameterObject? <;> simp +decide [Table.findIn]

theorem nodup_grayEntries (gray : GrayImage) (encoder : ImageEncoder) :
    (((grayEntries gray encoder).map fun (key, value) => (Bytes.ascii key, value)).map
      Prod.fst).Nodup := by
  rw [grayEntries]
  cases encoder.filterObject? <;> cases encoder.parameterObject? <;> simp <;> decide

theorem hasDistinctKeys_ofGray : (ofGray image gray encoder data).entries.HasDistinctKeys :=
  ((Table.hasDistinctKeys_ofList _).foldl_insert _).insert _ _

/-- The entries of a gray inline image are the others of the image that it replaces, and those that
it is described with. -/
theorem get?_ofGray (distinct : image.entries.HasDistinctKeys)
    (noLength : Bytes.ascii "Length" ≠ Bytes.ascii key) :
    (ofGray image gray encoder data).entries.get? key =
      (Table.findIn (Bytes.ascii key) (otherEntries image)).or (grayEntry gray encoder key) := by
  have distinctOthers : ((otherEntries image).map Prod.fst).Nodup :=
    (List.Sublist.map _ List.filter_sublist).nodup distinct
  have inserted := Table.find?_foldl_insert distinctOthers
    (Dictionary.ofEntries (grayEntries gray encoder)) (Bytes.ascii key)
  refine (Table.find?_insert _ _ _ _).trans ((if_neg noLength).trans (inserted.trans ?_))
  rw [Dictionary.ofEntries, Table.find?_ofList (nodup_grayEntries gray encoder), grayEntry]

/-- An entry that describes samples is one of the gray levels. -/
theorem get?_ofGray_sample (distinct : image.entries.HasDistinctKeys)
    (isSample : (sampleKeys.map Bytes.ascii).contains (Bytes.ascii key) = true)
    (noLength : Bytes.ascii "Length" ≠ Bytes.ascii key) :
    (ofGray image gray encoder data).entries.get? key = grayEntry gray encoder key := by
  rw [get?_ofGray distinct noLength, Table.findIn_eq_none, Option.none_or]
  intro among
  obtain ⟨entry, kept, isKey⟩ := List.mem_map.mp among
  have notSample := (List.mem_filter.mp kept).2
  dsimp only at notSample
  rw [isKey, isSample] at notSample
  cases notSample

/-- An entry that does not describe samples is as before. -/
theorem get?_ofGray_kept (distinct : image.entries.HasDistinctKeys)
    (notSample : (sampleKeys.map Bytes.ascii).contains (Bytes.ascii key) = false)
    (noLength : Bytes.ascii "Length" ≠ Bytes.ascii key) :
    (ofGray image gray encoder data).entries.get? key = image.entries.get? key := by
  have isOther : Table.findIn (Bytes.ascii key) (otherEntries image) = image.entries.get? key := by
    refine Table.findIn_filter fun entry _ isKey => ?_
    dsimp only
    rw [isKey, notSample]
    rfl
  have notDescribed : grayEntry gray encoder key = none := by
    refine Table.findIn_eq_none fun among => ?_
    have described : Bytes.ascii key ∈ sampleKeys.map Bytes.ascii := by
      revert among
      rw [grayEntries]
      cases encoder.filterObject? <;> cases encoder.parameterObject? <;>
        simp +contextual [sampleKeys, or_imp]
    rw [List.contains_iff_mem.mpr described] at notSample
    cases notSample
  rw [get?_ofGray distinct noLength, isOther, notDescribed, Option.or_none]

/-! ## The samples of what is read -/

/-- What is under the second of two keys is read where nothing is under the first. -/
theorem eitherEntry?_of_short {entries : Dictionary} {full short : String} {found : Option Object}
    (noFull : entries.get? full = none) (isShort : entries.get? short = found)
    (isDirect : ∀ value, found = some value → document.resolve value = .ok value) :
    document.eitherEntry? entries full short = .ok found := by
  rw [Document.eitherEntry?, Document.entry?, Document.entry?, noFull, isShort]
  cases found with
  | none => rfl
  | some value =>
      show some <$> document.resolve value = _
      rw [isDirect value rfl]
      rfl

/-- A dimension is read back from its integer if and only if that can tell it. -/
theorem dimension_eq_ok_iff {entries : Dictionary} {full short : String} {length : Nat}
    (isLength : document.eitherEntry? entries full short =
      .ok (some (.integer (Int64.ofNat length)))) :
    SampleImage.dimension document entries full short = .ok length ↔ length < 2 ^ 63 := by
  rw [SampleImage.dimension, isLength]
  show (if 0 ≤ Int64.ofNat length then pure (Int64.ofNat length).toInt.toNat
    else throw (.image (.noDimension full)) : Outcome Nat) = _ ↔ _
  constructor
  · intro isRead
    split at isRead
    next =>
      have same : (Int64.ofNat length).toInt.toNat = length := pure_eq_ok.mp isRead
      have bounded := Int64.toInt_lt (Int64.ofNat length)
      omega
    next => cases isRead
  · intro bounded
    have isInt : (Int64.ofNat length).toInt = length := Int64.toInt_ofNat_of_lt bounded
    have nonnegative : (0 : Int64) ≤ Int64.ofNat length := by
      rw [Int64.le_iff_toInt_le, isInt]
      exact Int.natCast_nonneg _
    rw [if_pos nonnegative, isInt]
    rfl

/-- Whether an image has the entries of another one, up to those that tell the length. -/
def SameButLength (again stored : Stream) : Prop :=
  ∀ key, key ≠ Bytes.ascii "Length" → key ≠ Bytes.ascii "L" →
    again.entries.find? key = stored.entries.find? key

/-- The entries of what is read are those of the gray levels, or none, if they describe samples. -/
theorem SameButLength.get?_sample (same : SameButLength again (ofGray image gray encoder data))
    (distinct : image.entries.HasDistinctKeys)
    (isSample : (sampleKeys.map Bytes.ascii).contains (Bytes.ascii key) = true)
    (noLength : Bytes.ascii key ≠ Bytes.ascii "Length") (notShort : Bytes.ascii key ≠ Bytes.ascii "L") :
    again.entries.get? key = grayEntry gray encoder key :=
  (same _ noLength notShort).trans (get?_ofGray_sample distinct isSample (Ne.symm noLength))

/-- What is read is a stencil as the image was that was replaced. -/
theorem SameButLength.isMask (same : SameButLength again (ofGray image gray encoder data))
    (distinct : image.entries.HasDistinctKeys) : isMask again = isMask image := by
  have kept {key : String} (notSample : (sampleKeys.map Bytes.ascii).contains (Bytes.ascii key) = false)
      (noLength : Bytes.ascii key ≠ Bytes.ascii "Length")
      (notShort : Bytes.ascii key ≠ Bytes.ascii "L") :
      again.entries.get? key = image.entries.get? key :=
    (same _ noLength notShort).trans (get?_ofGray_kept distinct notSample (Ne.symm noLength))
  rw [InlineImage.isMask, InlineImage.isMask, shortFirst?, shortFirst?,
    kept (by decide) (by decide) (by decide), kept (by decide) (by decide) (by decide)]

/-- What is read describes the encoder that was used. -/
theorem SameButLength.describesIn (same : SameButLength again (ofGray image gray encoder data))
    (distinct : image.entries.HasDistinctKeys) :
    ImageEncoder.DescribesIn document again.entries encoder := by
  have isSample {key : String} := @get?_sample image again gray encoder data key same distinct
  obtain ⟨-, -, -, -, filter, parameters, -⟩ := grayEntry_short gray encoder
  obtain ⟨-, -, noFilter, noParameters, -⟩ := grayEntry_full gray encoder
  constructor
  · refine eitherEntry?_of_short ?_ ?_ fun _ => ImageEncoder.resolve_filterObject?
    · rw [isSample (by decide) (by decide) (by decide), noFilter]
    · rw [isSample (by decide) (by decide) (by decide), filter]
  · refine eitherEntry?_of_short ?_ ?_ fun _ => ImageEncoder.resolve_parameterObject?
    · rw [isSample (by decide) (by decide) (by decide), noParameters]
    · rw [isSample (by decide) (by decide) (by decide), parameters]

/-- The samples of what is read are the levels of gray if and only if machine integers can tell the
dimensions. -/
theorem SameButLength.samples_iff (same : SameButLength again (ofGray image gray encoder data))
    (distinct : image.entries.HasDistinctKeys) (noMask : InlineImage.isMask image = false)
    (isDecoded : again.decode scope.document = .ok ⟨gray.data, none⟩) :
    samples scope again = .ok ⟨gray.width, gray.height, 8, 1, gray.data, none⟩ ↔
      gray.width < 2 ^ 63 ∧ gray.height < 2 ^ 63 := by
  have isSample {key : String} := @get?_sample image again gray encoder data key same distinct
  obtain ⟨width, height, space, bits, -, -, noIntervals⟩ := grayEntry_short gray encoder
  obtain ⟨noWidth, noHeight, -, -, noDecode⟩ := grayEntry_full gray encoder
  have stencil : InlineImage.isMask again = false := (same.isMask distinct).trans noMask
  have isSpace : colorSpace scope again = .ok .deviceGray := by
    have isName : Text.ofBytes (Bytes.ascii "DeviceGray") = "DeviceGray" :=
      Text.ofBytes_ascii (by decide)
    rw [colorSpace, if_neg (Bool.eq_false_iff.mp stencil), shortFirst?,
      isSample (by decide) (by decide) (by decide), space, Option.some_or]
    simp only [Object.named]
    rw [isName]
    rfl
  have isDepth : depth again = .ok 8 := by
    rw [depth, stencil, shortFirst?, isSample (by decide) (by decide) (by decide), bits]
    rfl
  have isWidth : SampleImage.dimension scope.document again.entries "Width" "W" = .ok gray.width ↔
      gray.width < 2 ^ 63 := dimension_eq_ok_iff (eitherEntry?_of_short
    ((isSample (by decide) (by decide) (by decide)).trans noWidth)
    ((isSample (by decide) (by decide) (by decide)).trans width) (by rintro _ ⟨⟩; rfl))
  have isHeight : SampleImage.dimension scope.document again.entries "Height" "H" = .ok gray.height ↔
      gray.height < 2 ^ 63 := dimension_eq_ok_iff (eitherEntry?_of_short
    ((isSample (by decide) (by decide) (by decide)).trans noHeight)
    ((isSample (by decide) (by decide) (by decide)).trans height) (by rintro _ ⟨⟩; rfl))
  have intervals : SampleImage.decodeArray? scope.document again.entries = .ok none := by
    rw [SampleImage.decodeArray?, eitherEntry?_of_short
      ((isSample (by decide) (by decide) (by decide)).trans noDecode)
      ((isSample (by decide) (by decide) (by decide)).trans noIntervals) (by rintro _ ⟨⟩)]
    rfl
  rw [← isWidth, ← isHeight, samples, isSpace, isDepth]
  constructor
  · intro isRead
    obtain ⟨_, ⟨⟩, isRead⟩ := bind_eq_ok.mp isRead
    obtain ⟨readWidth, isWidthRead, isRead⟩ := bind_eq_ok.mp isRead
    obtain ⟨readHeight, isHeightRead, isRead⟩ := bind_eq_ok.mp isRead
    obtain ⟨_, ⟨⟩, isRead⟩ := bind_eq_ok.mp isRead
    rw [SampleImage.decodeStream, isDecoded, intervals] at isRead
    cases isRead
    exact ⟨isWidthRead, isHeightRead⟩
  · rintro ⟨isWidthRead, isHeightRead⟩
    rw [isWidthRead, isHeightRead]
    simp only [SampleImage.decodeStream, bind, Except.bind]
    rw [isDecoded, intervals]
    rfl

/-! ## The stored image in content -/

/-- Operations of different inline images differ. -/
theorem imageOperation_injective : Function.Injective Content.imageOperation := by
  rintro ⟨entries, data⟩ ⟨otherEntries, otherData⟩ same
  cases same
  rfl

/-- Content that is one inline image is read back as one inline image with the same entries. -/
theorem read_write_imageOperation (distinct : stored.entries.HasDistinctKeys)
    (bounded : stored.data.length < 2 ^ 63) (readsBack : HeaderReadsBack stored) :
    ∃ bytes again, Content.write [Content.imageOperation stored] = .ok bytes ∧
      Content.read bytes = .ok [Content.imageOperation again] ∧
        again.data = stored.data ∧ SameButLength again stored := by
  have isImage : Operation.isImage (Content.imageOperation stored) = true := rfl
  have pieces : [Content.imageOperation stored].splitOnP Operation.isImage = [[], []] := rfl
  obtain ⟨bytes, isWritten, isRead⟩ := Content.read_write_behind [Content.imageOperation stored]
    { runs := by
        intro run among nonempty
        rw [pieces] at among
        simp [nonempty] at among
      headers := by
        intro other among
        cases imageOperation_injective (List.mem_singleton.mp among)
        exact readsBack }
    (by
      intro operation among _
      cases List.mem_singleton.mp among
      exact ⟨stored, rfl, distinct, bounded⟩)
  obtain ⟨operations, isRead, same⟩ := isRead [] (.inl rfl)
  obtain _ | ⟨atImage, _ | _⟩ := same
  generalize isOriginal : Content.imageOperation stored = original at atImage
  cases atImage with
  | ordinary => rw [← isOriginal, isImage] at *; contradiction
  | image original again sameData sameEntries =>
      cases imageOperation_injective isOriginal
      exact ⟨bytes, again, isWritten, isRead, sameData, sameEntries⟩

/-! ## Headers of names and integers -/

/-- The name or the integer that an operand is, if it is one. -/
def nameOrInteger? : Object → Option (Bytes × Option Int64)
  | .name bytes => some (bytes, none)
  | .integer value => some ([], some value)
  | _ => none

/-- Operands are the same if they are the same names and integers. -/
theorem eq_of_map_nameOrInteger? {operands header : List Object}
    (isPlain : header.all (fun operand => (nameOrInteger? operand).isSome) = true)
    (same : operands.map nameOrInteger? = header.map nameOrInteger?) : operands = header := by
  induction operands generalizing header with
  | nil => exact (List.map_eq_nil_iff.mp same.symm).symm
  | cons first rest inductionHypothesis =>
      obtain ⟨other, others, rfl, sameFirst, sameRest⟩ := List.map_eq_cons_iff.mp same.symm
      rw [List.all_cons, Bool.and_eq_true] at isPlain
      rw [inductionHypothesis isPlain.2 sameRest.symm]
      have isSame : first = other := by
        have isOther := isPlain.1
        unfold nameOrInteger? at sameFirst isOther
        split at sameFirst <;> split at sameFirst <;> simp_all
      rw [isSame]

/-- A header of names and integers is read if the names and integers are. -/
theorem readAll_of_nameOrInteger? {bytes : Bytes} {header : List Object}
    (isPlain : header.all (fun operand => (nameOrInteger? operand).isSome) = true)
    (same : (match Operation.readAll bytes with
      | some [⟨"ID", operands⟩] => some (operands.map nameOrInteger?)
      | _ => none) = some (header.map nameOrInteger?)) :
    Operation.readAll bytes = some [⟨"ID", header⟩] := by
  split at same
  next operands isRead =>
    rw [isRead, eq_of_map_nameOrInteger? isPlain (Option.some.inj same)]
  next => cases same

/-! ## A gray inline image is read back -/

end InlineImage
end Monochrome
