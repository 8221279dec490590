import Monochrome.Image.Object
import Monochrome.Proofs.ColorSpace.Agreeing
import Monochrome.Proofs.Content.ImageRoundTrip
import Monochrome.Proofs.Conversion.PatternSpaces
import Monochrome.Proofs.Image.Encoding
import Monochrome.Proofs.Object.Parts

/-!
# A gray image is read back

A gray image is stored with the entries of the image that it replaces, but for those that describe
the samples.  Those go under their full keys only.  So the gray levels are read back if no entry
under an abbreviated key takes the place of one that is not written again.
-/

namespace Monochrome

/-! ## Tables without a key -/

namespace Table

variable {κ α : Type} [DecidableEq κ]

/-- Replacing the entry of a key takes the key away, and puts the other one in its place. -/
theorem findIn_replaceIn {key : κ} {entry : κ × α} {entries : List (κ × α)}
    (distinct : (entries.map Prod.fst).Nodup) (isKey : key ∈ entries.map Prod.fst)
    (isNew : entry.1 ∉ entries.map Prod.fst) (other : κ) :
    findIn other (replaceIn key entry entries) =
      if entry.1 = other then some entry.2 else if key = other then none
      else findIn other entries := by
  induction entries with
  | nil => cases isKey
  | cons first rest inductionHypothesis =>
      obtain ⟨place, value⟩ := first
      simp only [List.map_cons, List.nodup_cons, List.mem_cons, not_or] at distinct isKey isNew
      rw [replaceIn]
      split
      next isPlace =>
        subst isPlace
        rw [findIn, findIn]
        split
        · rfl
        · split
          next same => rw [← same, findIn_eq_none distinct.1]
          next => rfl
      next isLater =>
        have later := inductionHypothesis distinct.2 (isKey.resolve_left (Ne.symm isLater)) isNew.2
        rw [findIn, findIn, later]
        split
        next atPlace =>
          subst atPlace
          rw [if_neg isNew.1, if_neg (Ne.symm isLater)]
        next => rfl

/-- The keys after the entry of one was replaced. -/
theorem nodup_replaceIn {key : κ} {entry : κ × α} {entries : List (κ × α)}
    (distinct : (entries.map Prod.fst).Nodup) (isNew : entry.1 ∉ entries.map Prod.fst) :
    ((replaceIn key entry entries).map Prod.fst).Nodup := by
  induction entries with
  | nil => exact List.nodup_nil
  | cons first rest inductionHypothesis =>
      obtain ⟨place, value⟩ := first
      simp only [List.map_cons, List.nodup_cons, List.mem_cons, not_or] at distinct isNew
      rw [replaceIn]
      split
      next => exact List.nodup_cons.mpr ⟨isNew.2, distinct.2⟩
      next =>
        refine List.nodup_cons.mpr ⟨?_, inductionHypothesis distinct.2 isNew.2⟩
        intro isOther
        obtain ⟨found, isFound, isPlace⟩ := List.mem_map.mp isOther
        rcases mem_replaceIn isFound with rfl | isOld
        · exact isNew.1 isPlace
        · exact distinct.1 (List.mem_map.mpr ⟨found, isOld, isPlace⟩)

/-- A key that is found is that of an entry. -/
theorem mem_keys_of_contains {table : Table κ α} {key : κ} (found : table.contains key = true) :
    key ∈ table.entries.map Prod.fst := by
  by_contra absent
  rw [contains, find?, findIn_eq_none absent] at found
  cases found

/-- A table without a key has no entry of the key, and the others are as before. -/
theorem erase_spec {table : Table κ α} (distinct : table.HasDistinctKeys) (key : κ) :
    (table.erase key).HasDistinctKeys ∧
      ∀ other, (table.erase key).find? other = if key = other then none else table.find? other := by
  obtain ⟨entries⟩ := table
  rw [erase]
  split
  next isThere =>
    rcases List.eq_nil_or_concat entries with rfl | ⟨front, last, rfl⟩
    · cases isThere
    · have isKey := mem_keys_of_contains isThere
      rw [HasDistinctKeys] at distinct
      simp only [List.concat_eq_append, List.map_append, List.map_cons, List.map_nil,
        List.mem_append, List.mem_singleton, List.getLast?_append, List.getLast?_singleton,
        Option.some_or, List.dropLast_concat] at isKey distinct ⊢
      have apart := List.nodup_append.mp distinct
      have lastNew : last.1 ∉ front.map Prod.fst := fun among =>
        apart.2.2 last.1 among last.1 (List.mem_singleton_self _) rfl
      split
      next atLast =>
        refine ⟨apart.1, fun other => ?_⟩
        rw [find?, find?, findIn_append]
        split
        next same => rw [← same, ← atLast, findIn_eq_none lastNew]
        next differs => simp [findIn, atLast, differs]
      next notLast =>
        have among := isKey.resolve_right (Ne.symm notLast)
        refine ⟨nodup_replaceIn apart.1 lastNew, fun other => ?_⟩
        rw [find?, find?, findIn_replaceIn apart.1 among lastNew, findIn_append]
        split
        next atLast =>
          subst atLast
          rw [if_neg (Ne.symm notLast), findIn_eq_none lastNew]
          simp [findIn]
        next differs => simp [findIn, differs]
  next isAbsent =>
    refine ⟨distinct, fun other => ?_⟩
    split
    next same => exact same ▸ Option.not_isSome_iff_eq_none.mp isAbsent
    next => rfl

end Table

namespace Dictionary

/-- Without keys the others are as before. -/
theorem foldl_remove_spec (keys : List String) {dictionary : Dictionary}
    (distinct : dictionary.HasDistinctKeys) :
    (keys.foldl remove dictionary).HasDistinctKeys ∧ ∀ other : String,
      (keys.foldl remove dictionary).get? other =
        if Bytes.ascii other ∈ keys.map Bytes.ascii then none else dictionary.get? other := by
  induction keys generalizing dictionary with
  | nil => exact ⟨distinct, fun _ => rfl⟩
  | cons key keys inductionHypothesis =>
      have removed := Table.erase_spec distinct (Bytes.ascii key)
      have apart : (dictionary.remove key).HasDistinctKeys := removed.1
      have later := inductionHypothesis apart
      refine ⟨later.1, fun other => ?_⟩
      rw [List.foldl_cons, later.2, List.map_cons]
      have atKey : (dictionary.remove key).get? other =
          if Bytes.ascii key = Bytes.ascii other then none else dictionary.get? other :=
        removed.2 _
      rw [atKey]
      by_cases same : Bytes.ascii key = Bytes.ascii other
      · simp [same]
      · simp [same, Ne.symm same]

/-- Setting keys one after the other finds the values of distinct keys. -/
theorem get?_foldl_set {entries : List (String × Object)}
    (distinct : (entries.map fun entry => Bytes.ascii entry.1).Nodup) (dictionary : Dictionary)
    (key : String) :
    (entries.foldl (fun (entries : Dictionary) (key, value) => entries.set key value)
        dictionary).get? key =
      (Table.findIn (Bytes.ascii key) (entries.map fun entry => (Bytes.ascii entry.1, entry.2))).or
        (dictionary.get? key) := by
  have apart : ((entries.map fun entry => (Bytes.ascii entry.1, entry.2)).map Prod.fst).Nodup := by
    rwa [List.map_map]
  have inserted := Table.find?_foldl_insert apart dictionary (Bytes.ascii key)
  rwa [List.foldl_map] at inserted

end Dictionary

/-! ## The stored image -/

namespace ImageObject

variable {document : Document} {image : Stream} {gray : GrayImage} {encoder : ImageEncoder}
  {data : Bytes}

/-- The entries that a gray image is described with. -/
def grayEntries (gray : GrayImage) (encoder : ImageEncoder) : List (String × Object) :=
  [("Width", .integer (Int64.ofNat gray.width)), ("Height", .integer (Int64.ofNat gray.height)),
    ("ColorSpace", .named "DeviceGray"), ("BitsPerComponent", .integer 8)] ++
    (encoder.filterObject?.toList.map (("Filter", ·)) ++
      encoder.parameterObject?.toList.map (("DecodeParms", ·)))

theorem nodup_grayEntries (gray : GrayImage) (encoder : ImageEncoder) :
    ((grayEntries gray encoder).map fun entry => Bytes.ascii entry.1).Nodup := by
  rw [grayEntries]
  cases encoder.filterObject? <;> cases encoder.parameterObject? <;> simp <;> decide

/-- The entries of a gray image are those that it is described with and the others of the image that
it replaces. -/
theorem get?_withGray {key : String} (noLength : Bytes.ascii "Length" ≠ Bytes.ascii key) :
    (withGray image gray encoder data).entries.get? key =
      (Table.findIn (Bytes.ascii key)
        ((grayEntries gray encoder).map fun entry => (Bytes.ascii entry.1, entry.2))).or
      ((otherEntries image).get? key) := by
  have set := Dictionary.get?_foldl_set (nodup_grayEntries gray encoder) (otherEntries image) key
  rw [← set, withGray]
  refine (Table.find?_insert _ _ _ _).trans ?_
  rw [if_neg noLength]
  rfl

/-- An entry that does not describe samples is as before. -/
theorem get?_otherEntries {key : String} (distinct : image.entries.HasDistinctKeys)
    (noMask : Bytes.ascii "Mask" ≠ Bytes.ascii key) :
    (otherEntries image).get? key =
      if Bytes.ascii key ∈ sampleKeys.map Bytes.ascii then none else image.entries.get? key := by
  have removed := Dictionary.foldl_remove_spec sampleKeys distinct
  rw [otherEntries]
  split
  next =>
    refine ((Table.erase_spec removed.1 _).2 _).trans ?_
    rw [if_neg noMask]
    exact removed.2 key
  next => exact removed.2 key

/-- The keys that a gray image does not keep from the image that it replaces. -/
def grayKeys : List String :=
  ["Width", "Height", "Mask"] ++ sampleKeys

/-- An entry that a gray image keeps is as before. -/
theorem get?_withGray_kept {key : String} (distinct : image.entries.HasDistinctKeys)
    (kept : Bytes.ascii key ∉ grayKeys.map Bytes.ascii) :
    (withGray image gray encoder data).entries.get? key = image.entries.get? key := by
  simp only [grayKeys, sampleKeys, List.cons_append, List.nil_append, List.map_cons, List.map_nil,
    List.mem_cons, List.not_mem_nil, or_false, not_or] at kept
  obtain ⟨width, height, mask, filter, parameters, decode, length, space, depth⟩ := kept
  rw [get?_withGray (Ne.symm length), get?_otherEntries distinct (Ne.symm mask)]
  have notDescribed : Table.findIn (Bytes.ascii key)
      ((grayEntries gray encoder).map fun entry => (Bytes.ascii entry.1, entry.2)) = none := by
    refine Table.findIn_eq_none ?_
    rw [grayEntries]
    cases encoder.filterObject? <;> cases encoder.parameterObject? <;>
      simp [width, height, space, depth, filter, parameters]
  rw [notDescribed, Option.none_or, if_neg]
  simp [sampleKeys, filter, parameters, decode, length, space, depth]

/-- An entry that describes samples is one of the gray image or none. -/
theorem get?_withGray_sample {key : String} (distinct : image.entries.HasDistinctKeys)
    (isSample : Bytes.ascii key ∈ sampleKeys.map Bytes.ascii)
    (noLength : Bytes.ascii "Length" ≠ Bytes.ascii key) :
    (withGray image gray encoder data).entries.get? key =
      Table.findIn (Bytes.ascii key)
        ((grayEntries gray encoder).map fun entry => (Bytes.ascii entry.1, entry.2)) := by
  have noMask : Bytes.ascii "Mask" ≠ Bytes.ascii key := by
    intro isMask
    rw [← isMask] at isSample
    revert isSample
    decide
  rw [get?_withGray noLength, get?_otherEntries distinct noMask, if_pos isSample, Option.or_none]

/-- A gray image describes its encoder, if nothing under an abbreviated key takes the place of an
entry that is not written. -/
theorem describes_withGray (distinct : image.entries.HasDistinctKeys)
    (noFilter : encoder.filterObject? = none → image.entries.get? "F" = none)
    (noParameters : encoder.parameterObject? = none → image.entries.get? "DP" = none) :
    ImageEncoder.Describes (withGray image gray encoder data).entries encoder where
  filter := by
    rw [get?_withGray_sample distinct (by decide) (by decide), grayEntries]
    cases encoder.filterObject? <;> cases encoder.parameterObject? <;>
      simp +decide [Table.findIn]
  parameters := by
    rw [get?_withGray_sample distinct (by decide) (by decide), grayEntries]
    cases encoder.filterObject? <;> cases encoder.parameterObject? <;>
      simp +decide [Table.findIn]
  noFilter := by
    intro none
    rw [get?_withGray_kept distinct (by decide), noFilter none]
  noParameters := by
    intro none
    rw [get?_withGray_kept distinct (by decide), noParameters none]

/-- A length that a machine can count is read back from its integer. -/
theorem dimension_ofNat {entries : Dictionary} {full short : String} {length : Nat}
    (isLength : entries.get? full = some (.integer (Int64.ofNat length))) (short' : length < 2 ^ 63) :
    SampleImage.dimension document entries full short = .ok length := by
  have isInt : (Int64.ofNat length).toInt = length := Int64.toInt_ofNat_of_lt short'
  have nonnegative : (0 : Int64) ≤ Int64.ofNat length := by
    rw [Int64.le_iff_toInt_le, isInt]
    simp
  rw [SampleImage.dimension, ImageEncoder.eitherEntry?_of_get? isLength
    (fun value isValue => by cases isValue; rfl) (by simp)]
  show (if 0 ≤ Int64.ofNat length then _ else _) = _
  rw [if_pos nonnegative, isInt]
  rfl

/-- The entries of a gray image that its samples are read with. -/
theorem get?_withGray_width (gray : GrayImage) (encoder : ImageEncoder) :
    (withGray image gray encoder data).entries.get? "Width" =
      some (.integer (Int64.ofNat gray.width)) := by
  rw [get?_withGray (by decide), grayEntries]
  simp [Table.findIn]

theorem get?_withGray_height (gray : GrayImage) (encoder : ImageEncoder) :
    (withGray image gray encoder data).entries.get? "Height" =
      some (.integer (Int64.ofNat gray.height)) := by
  rw [get?_withGray (by decide), grayEntries]
  simp +decide [Table.findIn]

theorem get?_withGray_space (gray : GrayImage) (encoder : ImageEncoder) :
    (withGray image gray encoder data).entries.get? "ColorSpace" = some (.named "DeviceGray") := by
  rw [get?_withGray (by decide), grayEntries]
  simp +decide [Table.findIn]

theorem get?_withGray_depth (gray : GrayImage) (encoder : ImageEncoder) :
    (withGray image gray encoder data).entries.get? "BitsPerComponent" = some (.integer 8) := by
  rw [get?_withGray (by decide), grayEntries]
  simp +decide [Table.findIn]

theorem get?_withGray_decode (distinct : image.entries.HasDistinctKeys) :
    (withGray image gray encoder data).entries.get? "Decode" = none := by
  rw [get?_withGray_sample distinct (by decide) (by decide), grayEntries]
  cases encoder.filterObject? <;> cases encoder.parameterObject? <;> simp +decide [Table.findIn]

/-- A gray image is a stencil as the image was that it replaces. -/
theorem isMask_withGray (distinct : image.entries.HasDistinctKeys) :
    isMask document (withGray image gray encoder data) = isMask document image := by
  rw [isMask, isMask, Document.entry?, Document.entry?, get?_withGray_kept distinct (by decide)]

/-- The samples of a gray image are its gray levels, if its data is decoded to them. -/
theorem samples_of_decode (distinct : image.entries.HasDistinctKeys)
    (noMask : isMask document image = .ok false) (narrow : gray.width < 2 ^ 63)
    (low : gray.height < 2 ^ 63) (noDecode : image.entries.get? "D" = none)
    (isDecoded : (withGray image gray encoder data).decode document = .ok ⟨gray.data, none⟩) :
    samples document (withGray image gray encoder data) =
      .ok ⟨gray.width, gray.height, 8, 1, gray.data, none⟩ := by
  have stencil : isMask document (withGray image gray encoder data) = .ok false := by
    rw [isMask_withGray distinct, noMask]
  have isGray : ColorSpace.read document (.named "DeviceGray") = .ok .deviceGray :=
    ColorSpace.read_of_readWithin (ColorSpace.readWithin_deviceGray document 0)
  have space : colorSpace document (withGray image gray encoder data) = .ok .deviceGray := by
    simp only [colorSpace, stencil, Limited.ok_bind, Bool.false_eq_true, if_false,
      get?_withGray_space]
    exact isGray
  have bits : depth document (withGray image gray encoder data) = .ok 8 := by
    rw [depth, stencil]
    show (document.integerEntry? _ "BitsPerComponent" >>= fun given => SampleImage.depthOf given) = _
    rw [Document.integerEntry?, Document.entry?, get?_withGray_depth]
    rfl
  have intervals : SampleImage.decodeArray? document (withGray image gray encoder data).entries =
      .ok none := by
    rw [SampleImage.decodeArray?, ImageEncoder.eitherEntry?_of_get? (get?_withGray_decode distinct)
      (by simp) (fun _ => by rw [get?_withGray_kept distinct (by decide), noDecode])]
    rfl
  rw [samples, space]
  simp only [bind, Except.bind]
  rw [bits, width, dimension_ofNat (get?_withGray_width gray encoder) narrow, height,
    dimension_ofNat (get?_withGray_height gray encoder) low]
  simp only [SampleImage.decodeStream, bind, Except.bind]
  rw [isDecoded, intervals]
  rfl

end ImageObject
end Monochrome
