import Monochrome.Proofs.ColorSpace.Storing
import Monochrome.Proofs.Image.InlineReadingBack

/-!
# The length of the data of inline images

Data without a filter is as long as the rows of the image: the length that the dictionary of an inline
image tells is the number of bytes of a row times the height of the image that is made of the data.  The
length is found with the full keys before the abbreviated ones, and the image with the abbreviated keys
first, so that they can differ if a key is given in both forms.
-/

namespace Monochrome
namespace InlineImage

open Limited Outcome

variable {dictionary : Dictionary} {scope : Scope} {data : Bytes} {full short : String}

/-! ## Dictionaries that describe rows -/

/-- The keys that describe an image, each in its full and its abbreviated form. -/
def keyForms : List (String × String) :=
  [("Width", "W"), ("Height", "H"), ("BitsPerComponent", "BPC"), ("ColorSpace", "CS"),
    ("ImageMask", "IM"), ("Filter", "F"), ("DecodeParms", "DP"), ("Decode", "D"), ("Length", "L")]

/-- The names of device spaces in inline images. -/
def deviceNames : List String :=
  ["DeviceGray", "G", "DeviceRGB", "RGB", "DeviceCMYK", "CMYK"]

/-- Color spaces that tell the number of components at once: none at all, a device space, or an array
that begins as a palette. -/
inductive IsPlainSpace : Option Object → Prop
  | absent : IsPlainSpace none
  | device {name : String} (isDevice : name ∈ deviceNames) : IsPlainSpace (some (.named name))
  | indexed {first : Object} (rest : List Object)
      (isFamily : first.text? = some "Indexed" ∨ first.text? = some "I") :
      IsPlainSpace (some (.array (first :: rest)))

/-- Whether the dictionary of an inline image tells the size of its rows: it has no filter and no length,
gives no key in both forms, and its dimensions and its number of bits are integers; and it is a stencil,
or has a color space that tells the number of components at once. -/
structure DescribesRows (dictionary : Dictionary) : Prop where
  noFilter : header? dictionary "Filter" "F" = none
  noLength : header? dictionary "Length" "L" = none
  single : ∀ key ∈ keyForms, dictionary.get? key.1 = none ∨ dictionary.get? key.2 = none
  width : ∃ value, header? dictionary "Width" "W" = some (.integer value)
  height : ∃ value, header? dictionary "Height" "H" = some (.integer value)
  bits : header? dictionary "BitsPerComponent" "BPC" = none ∨
    ∃ value, header? dictionary "BitsPerComponent" "BPC" = some (.integer value) ∧
      value.toInt ∈ SampleImage.depths
  space : Object.isTrue (header? dictionary "ImageMask" "IM") = true ∨
    IsPlainSpace (header? dictionary "ColorSpace" "CS")

/-! ## Entries of the image -/

/-- The first of two keys that is there in the dictionary of an image is the one of the header. -/
theorem eitherEntry?_eq (document : Document) (dictionary : Dictionary) (full short : String) :
    document.eitherEntry? dictionary full short =
      match header? dictionary full short with
      | some value => some <$> document.resolve value
      | none => .ok none := by
  rw [Document.eitherEntry?, Document.entry?, Document.entry?, header?]
  cases dictionary.get? full with
  | none => rfl
  | some value =>
      show ((some <$> document.resolve value) >>= _) = some <$> document.resolve value
      cases document.resolve value <;> rfl

/-- The image has the entries of the dictionary, the length apart. -/
theorem header?_ofData (noFull : Bytes.ascii "Length" ≠ Bytes.ascii full)
    (noShort : Bytes.ascii "Length" ≠ Bytes.ascii short) :
    header? (Stream.ofData dictionary data).entries full short = header? dictionary full short := by
  rw [header?, header?, Stream.get?_ofData noFull, Stream.get?_ofData noShort]

/-- Which form of a key comes first makes no difference if only one is given. -/
theorem shortFirst?_ofData (noFull : Bytes.ascii "Length" ≠ Bytes.ascii full)
    (noShort : Bytes.ascii "Length" ≠ Bytes.ascii short)
    (single : dictionary.get? full = none ∨ dictionary.get? short = none) :
    shortFirst? (Stream.ofData dictionary data) full short = header? dictionary full short := by
  rw [shortFirst?, header?, Stream.get?_ofData noFull, Stream.get?_ofData noShort]
  rcases single with absent | absent
  · rw [absent, Option.or_none, Option.none_or]
  · rw [absent, Option.or_none, Option.none_or]

/-- A dimension that is an integer is the natural number that the dictionary tells. -/
theorem dimension_ofData_eq_ok_iff {document : Document} {value : Int64} {length : Nat}
    (noFull : Bytes.ascii "Length" ≠ Bytes.ascii full)
    (noShort : Bytes.ascii "Length" ≠ Bytes.ascii short)
    (isInteger : header? dictionary full short = some (.integer value)) :
    SampleImage.dimension document (Stream.ofData dictionary data).entries full short = .ok length ↔
      natural? dictionary full short = some length := by
  have isResolved : document.resolve (.integer value) = .ok (.integer value) :=
    Document.resolve_of_value rfl
  rw [SampleImage.dimension, eitherEntry?_eq, header?_ofData noFull noShort, natural?, isInteger]
  simp only [isResolved]
  show (if 0 ≤ value then pure value.toInt.toNat else throw (.image (.noDimension full)) :
    Outcome Nat) = _ ↔ _
  split
  · rw [pure_eq_ok, Option.some.injEq]
  · rw [throw_eq_ok]
    simp

/-! ## Color spaces and samples -/

/-- An array that begins as a palette is read as one, which has one component. -/
theorem componentCount_of_indexed {document : Document} {first : Object} {rest : List Object}
    {space : ColorSpace Float32 Float}
    (isFamily : first.text? = some "Indexed" ∨ first.text? = some "I")
    (isRead : ColorSpace.read document (.array (first :: rest)) = .ok space) :
    space.componentCount = 1 := by
  rw [ColorSpace.read] at isRead
  generalize NumericFunction.readingBudget document _ = depth at isRead
  cases depth with
  | zero => cases isRead
  | succ depth =>
      rw [ColorSpace.readWithin_value rfl] at isRead
      obtain ⟨family, isText, unnamed, isPalette⟩ : ∃ family, first.text? = some family ∧
          (ColorSpace.ofName? family : Option (ColorSpace Float32 Float)) = none ∧
          (family = "Indexed" ∨ family = "I") := by
        rcases isFamily with isText | isText
        · exact ⟨_, isText, rfl, Or.inl rfl⟩
        · exact ⟨_, isText, rfl, Or.inr rfl⟩
      have isValue : first.isReference = false := by
        cases first with
        | reference => cases isText
        | _ => rfl
      have isName : first.asText = .ok family := by rw [Object.asText, isText]
      simp only [ColorSpace.readArray, List.head?_cons, Document.resolve_of_value isValue, isName,
        ok_bind, unnamed, ite_self] at isRead
      rcases isPalette with rfl | rfl
      all_goals
        obtain ⟨_, -, isRead⟩ := bind_eq_ok.1 isRead
        obtain ⟨base, -, isRead⟩ := bind_eq_ok.1 isRead
        obtain ⟨_, -, isRead⟩ := bind_eq_ok.1 isRead
        split at isRead
        · obtain ⟨_, -, isRead⟩ := bind_eq_ok.1 isRead
          obtain ⟨palette, -, isRead⟩ := bind_eq_ok.1 isRead
          exact pure_eq_ok.1 isRead ▸ rfl
        · cases isRead

/-- A color space that tells the number of its components at once is read as a space with as many. -/
theorem components?_of_isPlainSpace {space : ColorSpace Float32 Float}
    (plain : IsPlainSpace (header? dictionary "ColorSpace" "CS"))
    (found : shortFirst? (Stream.ofData dictionary data) "ColorSpace" "CS" =
      header? dictionary "ColorSpace" "CS")
    (noMask : isMask (Stream.ofData dictionary data) = false)
    (isSpace : colorSpace scope (Stream.ofData dictionary data) = .ok space) :
    components? dictionary = some space.componentCount := by
  rw [colorSpace, if_neg (Bool.eq_false_iff.mp noMask), found] at isSpace
  rw [components?]
  generalize header? dictionary "ColorSpace" "CS" = entry at plain isSpace ⊢
  cases plain with
  | absent => exact Except.ok.inj isSpace ▸ rfl
  | indexed rest isFamily =>
      have isPalette := isFamily.symm
      simp only [Bool.or_eq_true, decide_eq_true_eq, if_pos isPalette,
        componentCount_of_indexed isFamily isSpace]
  | device isDevice =>
      simp only [deviceNames, List.mem_cons, List.not_mem_nil, or_false] at isDevice
      rcases isDevice with rfl | rfl | rfl | rfl | rfl | rfl
      all_goals
        simp only [Object.named] at isSpace
        rw [Text.ofBytes_ascii (by decide)] at isSpace
        exact Except.ok.inj isSpace ▸ by decide

/-- The number of bits of a sample is the one that the header tells. -/
theorem depthOf_eq_ok_iff {bits : Nat}
    (told : header? dictionary "BitsPerComponent" "BPC" = none ∨
      ∃ value, header? dictionary "BitsPerComponent" "BPC" = some (.integer value) ∧
        value.toInt ∈ SampleImage.depths) :
    SampleImage.depthOf ((header? dictionary "BitsPerComponent" "BPC").bind Object.integer?) = .ok bits ↔
      (natural? dictionary "BitsPerComponent" "BPC").getD 8 = bits := by
  rw [natural?]
  rcases told with absent | ⟨value, isInteger, isDepth⟩
  · rw [absent]
    show Except.ok 8 = _ ↔ _
    simp
  · have nonnegative : 0 ≤ value := by
      rw [Int64.le_iff_toInt_le]
      simp only [SampleImage.depths, List.mem_cons, List.not_mem_nil, or_false] at isDepth
      simp
      omega
    rw [isInteger]
    simp only [Option.bind_some, Object.integer?, SampleImage.depthOf, Option.getD_some,
      List.contains_iff_mem.2 isDepth, if_true, if_pos nonnegative, Except.ok.injEq]

/-- An image is a stencil if the header says so. -/
theorem isMask_ofData (describes : DescribesRows dictionary) :
    isMask (Stream.ofData dictionary data) =
      Object.isTrue (header? dictionary "ImageMask" "IM") := by
  rw [isMask, shortFirst?_ofData (by decide) (by decide)
    (describes.single ("ImageMask", "IM") (by decide))]

/-- The header tells the samples of a row and their bits as the image has them. -/
theorem rowSamples?_eq {space : ColorSpace Float32 Float} {bits : Nat}
    (describes : DescribesRows dictionary)
    (isSpace : colorSpace scope (Stream.ofData dictionary data) = .ok space)
    (isDepth : depth (Stream.ofData dictionary data) = .ok bits) (width : Nat) :
    rowSamples? dictionary width = some (width * space.componentCount, bits) := by
  have sameMask : isMask (Stream.ofData dictionary data) = _ := isMask_ofData describes
  rw [rowSamples?, ← sameMask]
  cases mask : isMask (Stream.ofData dictionary data) with
  | true =>
      rw [colorSpace, if_pos mask] at isSpace
      rw [depth, if_pos mask] at isDepth
      rw [if_pos rfl, ← Except.ok.inj isSpace, ← Except.ok.inj isDepth, ColorSpace.componentCount,
        Nat.mul_one]
  | false =>
      have noStencil : ¬isMask (Stream.ofData dictionary data) = true := by simp [mask]
      rw [depth, if_neg noStencil, shortFirst?_ofData (by decide) (by decide)
        (describes.single ("BitsPerComponent", "BPC") (by decide)),
        depthOf_eq_ok_iff describes.bits] at isDepth
      have plain : IsPlainSpace (header? dictionary "ColorSpace" "CS") :=
        describes.space.resolve_left (by simp [← sameMask, mask])
      rw [if_neg Bool.false_ne_true, components?_of_isPlainSpace plain
        (shortFirst?_ofData (by decide) (by decide)
          (describes.single ("ColorSpace", "CS") (by decide))) mask isSpace,
        isDepth, Option.map_some]

/-! ## Images -/

/-- Data without a filter is the data of its image. -/
theorem decodeStream_eq_ok_iff {document : Document} {width height components bits : Nat}
    {image : SampleImage Float32} (noFilter : header? dictionary "Filter" "F" = none) :
    SampleImage.decodeStream document (Stream.ofData dictionary data) width height components bits =
        .ok image ↔
      (∃ parameters, Filter.parameterDictionaries document
        (Stream.ofData dictionary data).entries 0 = .ok parameters) ∧
      ∃ decode, SampleImage.decodeArray? document (Stream.ofData dictionary data).entries =
        .ok decode ∧ image = ⟨width, height, bits, components, data, decode⟩ := by
  have unfiltered : Filter.names document (Stream.ofData dictionary data).entries = .ok [] := by
    rw [Filter.names, eitherEntry?_eq, header?_ofData (by decide) (by decide), noFilter]
    rfl
  rw [SampleImage.decodeStream, Stream.decode, Filter.chain, unfiltered, ok_bind, List.length_nil]
  cases Filter.parameterDictionaries document (Stream.ofData dictionary data).entries 0 with
  | error fault =>
      constructor
      · intro isImage
        cases isImage
      · rintro ⟨⟨_, isRead⟩, -⟩
        cases isRead
  | ok parameters =>
      show (SampleImage.decodeArray? _ _ >>= fun decode => _) = _ ↔ _
      cases SampleImage.decodeArray? document (Stream.ofData dictionary data).entries with
      | error fault =>
          constructor
          · intro isImage
            cases isImage
          · rintro ⟨-, _, isRead, -⟩
            cases isRead
      | ok decode =>
          constructor
          · intro isImage
            exact ⟨⟨parameters, rfl⟩, decode, rfl, (Except.ok.inj isImage).symm⟩
          · rintro ⟨-, _, isRead, rfl⟩
            rw [← Except.ok.inj isRead]
            rfl

/-- The length that the dictionary tells. -/
theorem dataLength?_eq {width height samples bits : Nat} (describes : DescribesRows dictionary)
    (isWidth : natural? dictionary "Width" "W" = some width)
    (isHeight : natural? dictionary "Height" "H" = some height)
    (isRow : rowSamples? dictionary width = some (samples, bits)) :
    dataLength? dictionary =
      if samples < 2 ^ 64 ∧ samples * bits < 2 ^ 64 then some ((samples * bits + 7) / 8 * height)
      else none := by
  have noLength : natural? dictionary "Length" "L" = none := by
    rw [natural?, describes.noLength]
  rw [dataLength?, noLength, describes.noFilter]
  simp only [Option.isSome_none, if_false, isWidth, isHeight, isRow, Option.bind_eq_bind,
    Option.bind_some, Option.pure_def, Bool.false_eq_true]

/-- When an image is made of the data, and which. -/
theorem samples_eq_ok_iff {image : SampleImage Float32} (describes : DescribesRows dictionary) :
    samples scope (Stream.ofData dictionary data) = .ok image ↔
      (∃ space, colorSpace scope (Stream.ofData dictionary data) = .ok space ∧
        image.components = space.componentCount) ∧
      natural? dictionary "Width" "W" = some image.width ∧
      natural? dictionary "Height" "H" = some image.height ∧
      depth (Stream.ofData dictionary data) = .ok image.bits ∧
      (∃ parameters, Filter.parameterDictionaries scope.document
        (Stream.ofData dictionary data).entries 0 = .ok parameters) ∧
      SampleImage.decodeArray? scope.document (Stream.ofData dictionary data).entries =
        .ok image.decode ∧
      image.data = data := by
  obtain ⟨width, isWidth⟩ := describes.width
  obtain ⟨height, isHeight⟩ := describes.height
  simp only [samples, bind_eq_ok, decodeStream_eq_ok_iff describes.noFilter,
    dimension_ofData_eq_ok_iff (by decide) (by decide) isWidth,
    dimension_ofData_eq_ok_iff (by decide) (by decide) isHeight]
  constructor
  · rintro ⟨space, isSpace, width, isWidth, height, isHeight, bits, isDepth, isParameters, decode,
      isDecode, rfl⟩
    exact ⟨⟨space, isSpace, rfl⟩, isWidth, isHeight, isDepth, isParameters, isDecode, rfl⟩
  · rintro ⟨⟨space, isSpace, isCount⟩, isWidth, isHeight, isDepth, isParameters, isDecode, rfl⟩
    exact ⟨space, isSpace, image.width, isWidth, image.height, isHeight, image.bits, isDepth,
      isParameters, image.decode, isDecode, isCount ▸ rfl⟩

/-- A sample has a bit at least. -/
theorem bits_pos_of_depth {image : Stream} {bits : Nat} (isDepth : depth image = .ok bits) :
    0 < bits := by
  rw [depth] at isDepth
  split at isDepth
  · exact Except.ok.inj isDepth ▸ Nat.one_pos
  · simp only [SampleImage.depthOf] at isDepth
    split at isDepth
    · rename_i isListed
      rw [← Except.ok.inj isDepth]
      simp only [SampleImage.depths, List.contains_iff_mem, List.mem_cons, List.not_mem_nil,
        or_false] at isListed
      omega
    · cases isDepth

/-- The length that the dictionary tells is the one of the rows of the image. -/
theorem dataLength?_of_samples {image : SampleImage Float32} (describes : DescribesRows dictionary)
    (isImage : samples scope (Stream.ofData dictionary data) = .ok image) :
    dataLength? dictionary =
      if image.width * image.components * image.bits < 2 ^ 64 then
        some (image.rowBytes * image.height)
      else none := by
  obtain ⟨⟨space, isSpace, isCount⟩, isWidth, isHeight, isDepth, -⟩ :=
    (samples_eq_ok_iff describes).1 isImage
  have fewer : image.width * image.components ≤ image.width * image.components * image.bits :=
    Nat.le_mul_of_pos_right _ (bits_pos_of_depth isDepth)
  rw [dataLength?_eq describes isWidth isHeight (rowSamples?_eq describes isSpace isDepth image.width),
    ← isCount, SampleImage.rowBytes]
  refine if_congr ⟨And.right, fun bounded => ⟨?_, bounded⟩⟩ rfl rfl
  exact Nat.lt_of_le_of_lt fewer bounded

/-- The dimensions are told where the length of rows is. -/
theorem natural?_of_dataLength? {length : Nat} (describes : DescribesRows dictionary)
    (known : dataLength? dictionary = some length) :
    (∃ width, natural? dictionary "Width" "W" = some width) ∧
      ∃ height, natural? dictionary "Height" "H" = some height := by
  have noLength : natural? dictionary "Length" "L" = none := by
    rw [natural?, describes.noLength]
  simp only [dataLength?, noLength, describes.noFilter, Option.isSome_none, Bool.false_eq_true,
    if_false, Option.bind_eq_bind, Option.bind_eq_some_iff] at known
  obtain ⟨width, isWidth, height, isHeight, -⟩ := known
  exact ⟨⟨width, isWidth⟩, ⟨height, isHeight⟩⟩

/-- A header that describes rows tells the number of bits of a sample. -/
theorem exists_depth (describes : DescribesRows dictionary) :
    ∃ bits, depth (Stream.ofData dictionary data) = .ok bits := by
  rw [depth]
  split
  · exact ⟨1, rfl⟩
  · refine ⟨(natural? dictionary "BitsPerComponent" "BPC").getD 8, ?_⟩
    rw [shortFirst?_ofData (by decide) (by decide)
      (describes.single ("BitsPerComponent", "BPC") (by decide))]
    exact (depthOf_eq_ok_iff describes.bits).2 rfl

/-- An image is made of the data if the dictionary tells its length, and if its color space, its
parameters and its intervals are read. -/
theorem exists_samples {length : Nat} (describes : DescribesRows dictionary)
    (known : dataLength? dictionary = some length)
    (isSpace : ∃ space, colorSpace scope (Stream.ofData dictionary data) = .ok space)
    (isParameters : ∃ parameters, Filter.parameterDictionaries scope.document
      (Stream.ofData dictionary data).entries 0 = .ok parameters)
    (isDecode : ∃ decode, SampleImage.decodeArray? scope.document
      (Stream.ofData dictionary data).entries = .ok decode) :
    ∃ image, samples scope (Stream.ofData dictionary data) = .ok image := by
  obtain ⟨space, isSpace⟩ := isSpace
  obtain ⟨decode, isDecode⟩ := isDecode
  obtain ⟨⟨width, isWidth⟩, ⟨height, isHeight⟩⟩ := natural?_of_dataLength? describes known
  obtain ⟨bits, isDepth⟩ : ∃ bits, depth (Stream.ofData dictionary data) = .ok bits :=
    exists_depth describes
  exact ⟨⟨width, height, bits, space.componentCount, data, decode⟩, (samples_eq_ok_iff describes).2
    ⟨⟨space, isSpace, rfl⟩, isWidth, isHeight, isDepth, isParameters, isDecode, rfl⟩⟩

/-- Data whose length the dictionary tells is read whole, and any data of this length may stand in its
place.  If the dictionary describes rows, the length is that of the rows of the image that is made of
the data. -/
theorem read_of_dataLength :
    (∀ {content header data blanks rest : Bytes} {dictionary : Dictionary} {blank : UInt8},
      Encloses content header dictionary blank data blanks rest →
        (dataLength? dictionary = some data.length →
          read content = .ok (Stream.ofData dictionary data, rest)) ∧
        ∀ otherData otherBlanks otherRest : Bytes,
          (∀ byte ∈ otherBlanks, Bytes.isBlank byte = true) → Lexeme.endsToken otherRest = true →
          Encloses (header ++ (Bytes.ascii "ID" ++
              blank :: (otherData ++ (otherBlanks ++ (Bytes.ascii "EI" ++ otherRest)))))
            header dictionary blank otherData otherBlanks otherRest) ∧
      ∀ {dictionary : Dictionary}, DescribesRows dictionary → ∀ scope data,
        (∀ image, samples scope (Stream.ofData dictionary data) = .ok image →
          image.data = data ∧
            dataLength? dictionary =
              if image.width * image.components * image.bits < 2 ^ 64 then
                some (image.rowBytes * image.height)
              else none) ∧
        ∀ length, dataLength? dictionary = some length →
          (∃ space, colorSpace scope (Stream.ofData dictionary data) = .ok space) →
          (∃ parameters, Filter.parameterDictionaries scope.document
            (Stream.ofData dictionary data).entries 0 = .ok parameters) →
          (∃ decode, SampleImage.decodeArray? scope.document
            (Stream.ofData dictionary data).entries = .ok decode) →
          ∃ image, samples scope (Stream.ofData dictionary data) = .ok image := by
  refine ⟨fun encloses => ⟨encloses.read, fun _ _ _ areBlank ends => encloses.replace areBlank ends⟩,
    fun describes scope data => ⟨fun image isImage => ⟨?_, ?_⟩, ?_⟩⟩
  · obtain ⟨-, -, -, -, -, -, isData⟩ := (samples_eq_ok_iff describes).1 isImage
    exact isData
  · exact dataLength?_of_samples describes isImage
  · intro length known isSpace isParameters isDecode
    exact exists_samples describes known isSpace isParameters isDecode

/-! ## A row whose data looks like its end -/

/-- The operands that describe one row with three gray pixels. -/
def rowOperands : List Object :=
  [.named "W", .integer 3, .named "H", .integer 1, .named "CS", .named "G", .named "BPC", .integer 8]

/-- The dictionary of the row. -/
def rowDictionary : Dictionary :=
  Table.ofList [(Bytes.ascii "W", .integer 3), (Bytes.ascii "H", .integer 1),
    (Bytes.ascii "CS", .named "G"), (Bytes.ascii "BPC", .integer 8)]

/-- The dictionary as it is written behind the word `BI`. -/
def rowHeader : Bytes :=
  Bytes.ascii " /W 3 /H 1 /CS /G /BPC 8 "

/-- A row of three bytes, which are a blank and an `EI`. -/
theorem encloses_row :
    Encloses (rowHeader ++ Bytes.ascii "ID  EI EI\n0 g") rowHeader rowDictionary 32
      (Bytes.ascii " EI") (Bytes.ascii " ") (Bytes.ascii "\n0 g") where
  word := by decide +kernel
  isDictionary := by
    have isRead : Operation.readAll (rowHeader ++ Bytes.ascii " ID") = some [⟨"ID", rowOperands⟩] :=
      readAll_of_nameOrInteger? (by decide +kernel) (by decide +kernel)
    rw [readDictionary, isRead]
    rfl
  isBlank := by decide
  areBlank := List.forall_mem_singleton.2 rfl
  ends := by decide +kernel

/-- The dictionary describes the row. -/
theorem describesRows_row : DescribesRows rowDictionary where
  noFilter := by decide
  noLength := by decide
  single := by decide
  width := ⟨3, rfl⟩
  height := ⟨1, rfl⟩
  bits := Or.inr ⟨8, rfl, by decide⟩
  space := Or.inr (@IsPlainSpace.device "G" (by decide))

/-- The image that is made of the row. -/
theorem samples_row (scope : Scope) :
    samples scope (Stream.ofData rowDictionary (Bytes.ascii " EI")) =
      .ok ⟨3, 1, 8, 1, Bytes.ascii " EI", none⟩ := by
  have isName : shortFirst? (Stream.ofData rowDictionary (Bytes.ascii " EI")) "ColorSpace" "CS" =
      some (.named "G") := rfl
  have isSpace : colorSpace scope (Stream.ofData rowDictionary (Bytes.ascii " EI")) =
      .ok .deviceGray := by
    rw [colorSpace, if_neg (by decide), isName]
    simp only [Object.named]
    rw [Text.ofBytes_ascii (by decide)]
    rfl
  exact (samples_eq_ok_iff describesRows_row).2
    ⟨⟨.deviceGray, isSpace, rfl⟩, rfl, rfl, rfl, ⟨[], rfl⟩, rfl, rfl⟩

/-- The three bytes of the row are read, and are as many as its image needs. -/
theorem read_of_dataLength_row :
    read (rowHeader ++ Bytes.ascii "ID  EI EI\n0 g") =
        .ok (Stream.ofData rowDictionary (Bytes.ascii " EI"), Bytes.ascii "\n0 g") ∧
      ∀ scope, ∃ image,
        samples scope (Stream.ofData rowDictionary (Bytes.ascii " EI")) = .ok image ∧
          image.data = Bytes.ascii " EI" ∧
          dataLength? rowDictionary = some (image.rowBytes * image.height) := by
  refine ⟨(read_of_dataLength.1 encloses_row).1 (by decide), fun scope => ?_⟩
  obtain ⟨isData, isLength⟩ :=
    (read_of_dataLength.2 describesRows_row scope (Bytes.ascii " EI")).1 _ (samples_row scope)
  exact ⟨_, samples_row scope, isData, isLength.trans (if_pos (by decide))⟩

end InlineImage
end Monochrome
