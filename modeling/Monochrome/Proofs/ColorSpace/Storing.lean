import Monochrome.Proofs.ColorSpace.Gray
import Monochrome.Proofs.NumericFunction.Storing

/-!
# Color spaces are read as they were stored

A space is stored as what it was read from, if it kept that, and else as what it is made of; its palette
is a string then, and the functions of its inks are stored before it.  Reading a space makes sure that it
is read again from what it kept, and that the last index of a palette is a byte.  The partner in gray of
such a space keeps this.  So both are read from what is stored for them, in a document that only gained
the streams of functions.
-/

namespace Monochrome

open Document Outcome

namespace NumericFunction

/-- A function is read from the value that its object stands for. -/
theorem exists_resolve {document : Document} {object : Object} {function : NumericFunction Float32 Float}
    (isRead : read document object = .ok function) :
    ∃ value, document.resolve object = .ok value ∧ read document value = .ok function := by
  rw [read] at isRead
  generalize readingBudget document object = depth at isRead
  cases depth with
  | zero => cases isRead
  | succ depth =>
      obtain ⟨value, stands, -⟩ := bind_eq_ok.1 isRead
      rw [readWithin_of_resolve stands] at isRead
      exact ⟨value, stands, read_of_readWithin isRead⟩

end NumericFunction

namespace ColorSpace

variable {document later : Document} {object : Object} {space gray : ColorSpace Float32 Float}

/-! ## What spaces keep -/

/-- The name of a space that is stored as one. -/
def name? : ColorSpace Float32 Float → Option String
  | deviceGray => some "DeviceGray"
  | deviceRgb => some "DeviceRGB"
  | deviceCmyk => some "DeviceCMYK"
  | pattern => some "Pattern"
  | _ => none

/-- The object of a space that keeps what it was read from. -/
def source? : ColorSpace Float32 Float → Option Object
  | calGray source => some source
  | calRgb source => some source
  | lab _ _ _ source => some source
  | profile _ source => some source
  | profileOver _ _ source => some source
  | _ => none

/-- The functions of inks that are stored with a space. -/
def tints : ColorSpace Float32 Float → List (NumericFunction Float32 Float)
  | indexed base _ _ => base.tints
  | patternOver underlying => underlying.tints
  | separation _ alternate tint => alternate.tints ++ [tint]
  | deviceN _ alternate tint _ => alternate.tints ++ [tint]
  | _ => []

/-- Whether a space is read again from what it keeps of a document, and the last index of each palette
in it is a byte. -/
inductive Stands (document : Document) : ColorSpace Float32 Float → Prop
  | named {space : ColorSpace Float32 Float} {name : String} (isName : space.name? = some name) :
      Stands document space
  | kept {space : ColorSpace Float32 Float} {source : Object} (isKept : space.source? = some source)
      (isRead : read document source = .ok space) : Stands document space
  | indexed {base : ColorSpace Float32 Float} {last : Nat} (palette : Bytes) (isByte : last ≤ 255)
      (stands : Stands document base) : Stands document (.indexed base last palette)
  | patternOver {underlying : ColorSpace Float32 Float} (stands : Stands document underlying) :
      Stands document (.patternOver underlying)
  | separation {alternate : ColorSpace Float32 Float} (colorant : String)
      (tint : NumericFunction Float32 Float) (stands : Stands document alternate) :
      Stands document (.separation colorant alternate tint)
  | deviceN {alternate : ColorSpace Float32 Float} (colorants : List String)
      (tint : NumericFunction Float32 Float) (attributes : Option Object)
      (stands : Stands document alternate) :
      Stands document (.deviceN colorants alternate tint attributes)

/-! ## Reading what is stored -/

/-- A space is read from the value that its object stands for. -/
theorem exists_resolve (isRead : read document object = .ok space) :
    ∃ value depth, document.resolve object = .ok value ∧
      readWithin document depth value = .ok space := by
  rw [read] at isRead
  generalize NumericFunction.readingBudget document object = depth at isRead
  cases depth with
  | zero => cases isRead
  | succ depth =>
      obtain ⟨value, stands, isRead⟩ := bind_eq_ok.1 isRead
      have again : readWithin document (depth + 1) value = .ok space := by
        rw [readWithin, resolve_of_value (isReference_of_resolve stands)]
        exact isRead
      exact ⟨value, depth + 1, stands, again⟩

/-- A space that is read from the elements of an array is read from the array. -/
theorem read_of_readArray {depth : Nat} {items : List Object}
    (isRead : readArray document (readWithin document depth) items = .ok space) :
    read document (.array items) = .ok space := by
  have again : readWithin document (depth + 1) (.array items) = .ok space := by
    rw [readWithin_value rfl]
    exact isRead
  exact read_of_readWithin again

/-- The name of a space stands for it, and is in ASCII. -/
theorem ofName?_of_name? {name : String} (isName : space.name? = some name) :
    ofName? name = some space ∧ Bytes.ascii name = Text.toBytes name := by
  cases space <;> cases isName <;> exact ⟨rfl, by decide⟩

/-- A space with a name is stored as it. -/
theorem toObject_of_name? {name : String} (isName : space.name? = some name) (document : Document) :
    space.toObject document = (.named name, document) := by
  cases space <;> cases isName <;> rfl

/-- A space is read from its name. -/
theorem read_named {name : String} (isName : space.name? = some name) :
    read document (.named name) = .ok space := by
  obtain ⟨stands, isAscii⟩ := ofName?_of_name? isName
  have isRead : readWithin document 1 (.named name) = .ok space := by
    rw [readWithin_value rfl]
    simp only [Object.named, Text.ofBytes_ascii isAscii, stands]
  exact read_of_readWithin isRead

/-- The name of a family is read. -/
theorem asText_named {family : String} (isAscii : Bytes.ascii family = Text.toBytes family) :
    (Object.named family).asText = .ok family := by
  rw [Object.named, Object.asText, Object.text?, Text.ofBytes_ascii isAscii]

/-- The name of an ink is read. -/
theorem asText_toBytes (colorant : String) :
    (Object.name (Text.toBytes colorant)).asText = .ok colorant := by
  rw [Object.asText, Object.text?, Text.ofBytes_toBytes]

/-- The names of inks are read. -/
theorem readColorants_toBytes (document : Document) (colorants : List String) :
    readColorants document (.array (colorants.map fun colorant => .name (Text.toBytes colorant))) =
      .ok colorants := by
  rw [readColorants, mapM_eq_ok, List.forall₂_map_left_iff, List.forall₂_same]
  intro colorant _
  rw [resolve_of_value rfl]
  exact asText_toBytes colorant

/-- A palette is read from its base and its bytes. -/
theorem read_indexed {below : Object} {base : ColorSpace Float32 Float} {last : Nat}
    {palette : Bytes} (isBase : read document below = .ok base) (isByte : last ≤ 255) :
    read document (.array
      [.named "Indexed", below, .integer (Int64.ofNat last), .string palette .hexadecimal]) =
      .ok (indexed base last palette) := by
  obtain ⟨value, depth, stands, isRead⟩ := exists_resolve isBase
  suffices readArray document (readWithin document depth) _ = _ from read_of_readArray this
  have family : (Object.named "Indexed").asText = .ok "Indexed" := asText_named (by decide)
  have isLast : (min (max (Int64.ofNat last).toInt 0) 255).toNat = last := by
    rw [Int64.toInt_ofNat_of_lt (by omega)]
    omega
  generalize Int64.ofNat last = number at isLast
  have isEnd : document.resolve (.integer number) = .ok (.integer number) := resolve_of_value rfl
  have isPalette : document.resolve (.string palette .hexadecimal) =
      .ok (.string palette .hexadecimal) := resolve_of_value rfl
  simp [readArray, resolve_named, family, element, stands, isRead, isEnd, Object.integer?, isPalette,
    readPalette, isLast]

/-- A space of patterns is read from the space under it. -/
theorem read_patternOver {below : Object} {underlying : ColorSpace Float32 Float}
    (isUnderlying : read document below = .ok underlying) :
    read document (.array [.named "Pattern", below]) = .ok (patternOver underlying) := by
  obtain ⟨value, depth, stands, isRead⟩ := exists_resolve isUnderlying
  suffices readArray document (readWithin document depth) _ = _ from read_of_readArray this
  have family : (Object.named "Pattern").asText = .ok "Pattern" := asText_named (by decide)
  simp [readArray, resolve_named, family, element, stands, isRead]

section Inks

variable {below function : Object} {alternate : ColorSpace Float32 Float}
variable {tint : NumericFunction Float32 Float}
variable (isAlternate : read document below = .ok alternate)
  (isTint : NumericFunction.read document function = .ok tint)

include isAlternate isTint

/-- One ink is read from its name, its alternate space and its function. -/
theorem read_separation (colorant : String) :
    read document (.array
      [.named "Separation", .name (Text.toBytes colorant), below, function]) =
      .ok (separation colorant alternate tint) := by
  obtain ⟨value, depth, stands, isRead⟩ := exists_resolve isAlternate
  obtain ⟨stored, leads, isTold⟩ := NumericFunction.exists_resolve isTint
  suffices readArray document (readWithin document depth) _ = _ from read_of_readArray this
  have family : (Object.named "Separation").asText = .ok "Separation" := asText_named (by decide)
  have isColorant : document.resolve (.name (Text.toBytes colorant)) =
      .ok (.name (Text.toBytes colorant)) := resolve_of_value rfl
  simp [readArray, resolve_named, family, element, stands, isRead, leads, isTold, isColorant,
    asText_toBytes]

/-- Several inks are read from their names, their alternate space, their function and what else they
have. -/
theorem read_deviceN (colorants : List String) (attributes : Option Object) :
    read document (.array ([.named "DeviceN",
      .array (colorants.map fun colorant => .name (Text.toBytes colorant)), below, function] ++
        attributes.toList)) =
      .ok (deviceN colorants alternate tint attributes) := by
  obtain ⟨value, depth, stands, isRead⟩ := exists_resolve isAlternate
  obtain ⟨stored, leads, isTold⟩ := NumericFunction.exists_resolve isTint
  suffices readArray document (readWithin document depth) _ = _ from read_of_readArray this
  have family : (Object.named "DeviceN").asText = .ok "DeviceN" := asText_named (by decide)
  have others : attributes.toList[0]? = attributes := by cases attributes <;> rfl
  have areColorants (items : List Object) : document.resolve (.array items) = .ok (.array items) :=
    resolve_of_value rfl
  simp [readArray, resolve_named, family, element, stands, isRead, leads, isTold, areColorants,
    readColorants_toBytes, others]

end Inks

/-- A space that keeps what it was read from is stored as that. -/
theorem toObject_of_source? {source : Object} (isKept : space.source? = some source)
    (document : Document) : space.toObject document = (source, document) := by
  cases space <;> cases isKept <;> rfl

/-- A space is read from what is stored for it, if the functions of its inks are told by what is stored
for them. -/
theorem Stands.gains_toObject (stands : space.Stands document) (isNumbered : document.IsNumbered)
    (areTold : ∀ tint ∈ space.tints, tint.IsTold) :
    document.Gains (space.toObject document).2 ∧
      read (space.toObject document).2 (space.toObject document).1 = .ok space := by
  induction stands with
  | named isName =>
      rw [toObject_of_name? isName]
      exact ⟨.refl isNumbered, read_named isName⟩
  | kept isKept isRead =>
      rw [toObject_of_source? isKept]
      exact ⟨.refl isNumbered, isRead⟩
  | indexed palette isByte _ inductionHypothesis =>
      obtain ⟨gains, isBase⟩ := inductionHypothesis areTold
      exact ⟨gains, read_indexed isBase isByte⟩
  | patternOver _ inductionHypothesis =>
      obtain ⟨gains, isUnderlying⟩ := inductionHypothesis areTold
      exact ⟨gains, read_patternOver isUnderlying⟩
  | separation colorant tint _ inductionHypothesis =>
      obtain ⟨gains, isAlternate⟩ :=
        inductionHypothesis fun other among => areTold other (List.mem_append_left _ among)
      obtain ⟨gainsTint, isTint⟩ := NumericFunction.gains_toObject tint
        (areTold tint (List.mem_append_right _ List.mem_cons_self)) _ gains.isNumbered
      exact ⟨gains.trans gainsTint,
        read_separation (carries_read gainsTint.leads trivial _ isAlternate) isTint colorant⟩
  | deviceN colorants tint attributes _ inductionHypothesis =>
      obtain ⟨gains, isAlternate⟩ :=
        inductionHypothesis fun other among => areTold other (List.mem_append_left _ among)
      obtain ⟨gainsTint, isTint⟩ := NumericFunction.gains_toObject tint
        (areTold tint (List.mem_append_right _ List.mem_cons_self)) _ gains.isNumbered
      exact ⟨gains.trans gainsTint, read_deviceN (carries_read gainsTint.leads trivial _ isAlternate)
        isTint colorants attributes⟩

/-! ## Spaces that are read -/

/-- Whether a space is read again from what it keeps, and each function of its inks is read from an
object. -/
def ComesFrom (document : Document) (space : ColorSpace Float32 Float) : Prop :=
  space.Stands document ∧
    ∀ tint ∈ space.tints, ∃ object, NumericFunction.read document object = .ok tint

/-- A space that is stored as its name, or as what it keeps, stores no functions. -/
theorem tints_eq_nil (simple : space.name?.isSome ∨ space.source?.isSome) : space.tints = [] := by
  cases space <;> first | rfl | simp [name?, source?] at simple

/-- A space that is stored as its name stands for itself. -/
theorem ComesFrom.named {name : String} (isName : space.name? = some name) :
    space.ComesFrom document := by
  refine ⟨.named isName, ?_⟩
  rw [tints_eq_nil (Or.inl (by rw [isName]; rfl))]
  nofun

/-- A space that is read from what it keeps stands for it. -/
theorem ComesFrom.kept {source : Object} (isKept : space.source? = some source)
    (isRead : read document source = .ok space) : space.ComesFrom document := by
  refine ⟨.kept isKept isRead, ?_⟩
  rw [tints_eq_nil (Or.inr (by rw [isKept]; rfl))]
  nofun

/-- The functions that are stored with inks come from a document if those of the alternate space and
the function of the inks do. -/
theorem ComesFrom.tints_append {alternate : ColorSpace Float32 Float}
    {tint : NumericFunction Float32 Float} {function : Object}
    (comes : alternate.ComesFrom document)
    (isTint : NumericFunction.read document function = .ok tint) :
    ∀ other ∈ alternate.tints ++ [tint],
      ∃ object, NumericFunction.read document object = .ok other := by
  simp only [List.mem_append, List.mem_singleton]
  rintro other (among | rfl)
  · exact comes.2 other among
  · exact ⟨function, isTint⟩

/-- A space that a name stands for is stored as a name. -/
theorem exists_name?_of_ofName? {name : String} (found : ofName? name = some space) :
    ∃ written, space.name? = some written := by
  unfold ofName? at found
  split at found <;> cases found <;> exact ⟨_, rfl⟩

/-- The space of an array comes from a document, if the spaces inside it do, and the array is read as it
by itself. -/
theorem comesFrom_of_readArray {inner : Object → Outcome (ColorSpace Float32 Float)}
    {items : List Object} (isRead : readArray document inner items = .ok space)
    (again : read document (.array items) = .ok space)
    (each : ∀ {object part}, inner object = .ok part → part.ComesFrom document) :
    space.ComesFrom document := by
  unfold readArray at isRead
  cases isFirst : items.head? with
  | none =>
      rw [isFirst] at isRead
      cases isRead
  | some first =>
  rw [isFirst] at isRead
  obtain ⟨value, -, isRead⟩ := bind_eq_ok.1 isRead
  obtain ⟨family, -, isRead⟩ := bind_eq_ok.1 isRead
  dsimp only at isRead
  split at isRead
  case h_1 device isDevice =>
    obtain rfl := pure_eq_ok.1 isRead
    split at isDevice
    · obtain ⟨name, isName⟩ := exists_name?_of_ofName? isDevice
      exact .named isName
    · cases isDevice
  case h_2 =>
  split at isRead
  case h_1 | h_2 =>
    obtain rfl := pure_eq_ok.1 isRead
    exact .kept rfl again
  case h_3 =>
    obtain ⟨_, -, isRead⟩ := bind_eq_ok.1 isRead
    obtain ⟨entries, -, isRead⟩ := bind_eq_ok.1 isRead
    obtain ⟨white, -, isRead⟩ := bind_eq_ok.1 isRead
    obtain ⟨range, -, isRead⟩ := bind_eq_ok.1 isRead
    obtain rfl := pure_eq_ok.1 isRead
    exact .kept rfl again
  case h_4 =>
    obtain ⟨_, -, isRead⟩ := bind_eq_ok.1 isRead
    obtain ⟨stream, -, isRead⟩ := bind_eq_ok.1 isRead
    obtain ⟨count, -, isRead⟩ := bind_eq_ok.1 isRead
    split at isRead
    · obtain ⟨alternate, -, isRead⟩ := bind_eq_ok.1 isRead
      obtain rfl := pure_eq_ok.1 isRead
      exact .kept rfl again
    · obtain rfl := pure_eq_ok.1 isRead
      exact .kept rfl again
  case h_5 | h_6 =>
    obtain ⟨_, -, isRead⟩ := bind_eq_ok.1 isRead
    obtain ⟨base, isBase, isRead⟩ := bind_eq_ok.1 isRead
    obtain ⟨_, -, isRead⟩ := bind_eq_ok.1 isRead
    split at isRead
    · obtain ⟨_, -, isRead⟩ := bind_eq_ok.1 isRead
      obtain ⟨palette, -, isRead⟩ := bind_eq_ok.1 isRead
      obtain rfl := pure_eq_ok.1 isRead
      exact ⟨.indexed palette (by omega) (each isBase).1, (each isBase).2⟩
    · cases isRead
  case h_7 =>
    obtain ⟨_, -, isRead⟩ := bind_eq_ok.1 isRead
    obtain ⟨underlying, isUnderlying, isRead⟩ := bind_eq_ok.1 isRead
    obtain rfl := pure_eq_ok.1 isRead
    exact ⟨.patternOver (each isUnderlying).1, (each isUnderlying).2⟩
  case h_8 =>
    obtain ⟨_, -, isRead⟩ := bind_eq_ok.1 isRead
    obtain ⟨colorant, -, isRead⟩ := bind_eq_ok.1 isRead
    obtain ⟨_, -, isRead⟩ := bind_eq_ok.1 isRead
    obtain ⟨alternate, isAlternate, isRead⟩ := bind_eq_ok.1 isRead
    obtain ⟨function, -, isRead⟩ := bind_eq_ok.1 isRead
    obtain ⟨tint, isTint, isRead⟩ := bind_eq_ok.1 isRead
    obtain rfl := pure_eq_ok.1 isRead
    exact ⟨.separation colorant tint (each isAlternate).1, (each isAlternate).tints_append isTint⟩
  case h_9 =>
    obtain ⟨_, -, isRead⟩ := bind_eq_ok.1 isRead
    obtain ⟨colorants, -, isRead⟩ := bind_eq_ok.1 isRead
    obtain ⟨_, -, isRead⟩ := bind_eq_ok.1 isRead
    obtain ⟨alternate, isAlternate, isRead⟩ := bind_eq_ok.1 isRead
    obtain ⟨function, -, isRead⟩ := bind_eq_ok.1 isRead
    obtain ⟨tint, isTint, isRead⟩ := bind_eq_ok.1 isRead
    obtain rfl := pure_eq_ok.1 isRead
    exact ⟨.deviceN colorants tint _ (each isAlternate).1, (each isAlternate).tints_append isTint⟩
  case h_10 => cases isRead

/-- A space that is read comes from its document. -/
theorem comesFrom_of_readWithin {depth : Nat}
    (isRead : readWithin document depth object = .ok space) : space.ComesFrom document := by
  induction depth generalizing object space with
  | zero => cases isRead
  | succ depth inductionHypothesis =>
      obtain ⟨value, -, isRead⟩ := bind_eq_ok.1 isRead
      cases value with
      | name bytes =>
          dsimp only at isRead
          split at isRead
          · obtain rfl := pure_eq_ok.1 isRead
            obtain ⟨name, isName⟩ := exists_name?_of_ofName? ‹_›
            exact .named isName
          · cases isRead
      | array items =>
          exact comesFrom_of_readArray isRead (read_of_readArray isRead) inductionHypothesis
      | _ => cases isRead

/-! ## Partners in gray -/

/-- The last index of a palette that stands is a byte. -/
theorem Stands.last_le {base : ColorSpace Float32 Float} {last : Nat} {palette : Bytes}
    (stands : (ColorSpace.indexed base last palette).Stands document) : last ≤ 255 := by
  cases stands with
  | named isName => cases isName
  | kept isKept => cases isKept
  | indexed _ isByte => exact isByte

/-- The gray tints of an ink are told by what is stored for them. -/
theorem isTold_of_grayTint {tint : NumericFunction Float32 Float}
    (isTint : space.grayTint = .ok tint) : tint.IsTold := by
  obtain ⟨samples, sampled, isThrough⟩ := bind_eq_ok.1 isTint
  have enough : samples.length = 256 := by simpa using (mapM_eq_ok.1 sampled).length_eq.symm
  obtain rfl := pure_eq_ok.1 isThrough
  have isSize : NumericFunction.IsSize 256 := by
    rw [NumericFunction.IsSize]
    decide +kernel
  simpa [NumericFunction.throughSamples, NumericFunction.IsTold, enough] using isSize

/-- The numbers in the function from three components to gray are read back. -/
theorem isTold_rgbToGray : (NumericFunction.rgbToGray : NumericFunction Float32 Float).IsTold := by
  rw [NumericFunction.rgbToGray, NumericFunction.IsTold]
  simp only [NumericFunction.weighing, Calculator.Instruction.AllReadBack,
    Calculator.Instruction.ReadsBack]
  decide +kernel

/-- The numbers in the function from inks to gray are read back. -/
theorem isTold_inksToGray : (NumericFunction.inksToGray : NumericFunction Float32 Float).IsTold := by
  rw [NumericFunction.inksToGray, NumericFunction.IsTold]
  simp only [Calculator.Instruction.AllReadBack, Calculator.Instruction.ReadsBack]
  decide +kernel

/-- The partner in gray of a space stands for itself, and its functions are told, if the last index of
each palette that stands in the space is a byte. -/
theorem Stands.toGray (stands : space.Stands document) (converted : space.toGray = .ok gray) :
    gray.Stands document ∧ ∀ tint ∈ gray.tints, tint.IsTold := by
  have isGray : (ColorSpace.deviceGray).Stands document := .named rfl
  unfold ColorSpace.toGray at converted
  split at converted
  next =>
    obtain rfl := Except.ok.inj converted
    exact ⟨.named rfl, nofun⟩
  next =>
    obtain rfl := Except.ok.inj converted
    exact ⟨.patternOver isGray, nofun⟩
  next =>
    obtain ⟨palette, -, converted⟩ := bind_eq_ok.1 converted
    obtain rfl := pure_eq_ok.1 converted
    exact ⟨.indexed palette stands.last_le isGray, nofun⟩
  next =>
    obtain ⟨tint, isTint, converted⟩ := bind_eq_ok.1 converted
    obtain rfl := pure_eq_ok.1 converted
    refine ⟨.separation _ tint isGray, fun other among => ?_⟩
    obtain rfl : other = tint := List.mem_singleton.1 among
    exact isTold_of_grayTint isTint
  next =>
    obtain ⟨tint, isTint, converted⟩ := bind_eq_ok.1 converted
    obtain rfl := pure_eq_ok.1 converted
    refine ⟨.deviceN _ tint _ isGray, fun other among => ?_⟩
    obtain rfl : other = tint := List.mem_singleton.1 among
    exact isTold_of_grayTint isTint
  next =>
    unfold grayOfCount at converted
    split_ifs at converted <;> obtain rfl := Except.ok.inj converted
    · exact ⟨isGray, nofun⟩
    · refine ⟨.deviceN _ _ _ isGray, fun other among => ?_⟩
      obtain rfl : other = NumericFunction.rgbToGray := List.mem_singleton.1 among
      exact isTold_rgbToGray
    · refine ⟨.deviceN _ _ _ isGray, fun other among => ?_⟩
      obtain rfl : other = NumericFunction.inksToGray := List.mem_singleton.1 among
      exact isTold_inksToGray

/-- The gray tints of an ink are read from what is stored for them in any document. -/
theorem read_toObject_grayTint {tint : NumericFunction Float32 Float}
    (isTint : space.grayTint = .ok tint) (later : Document) :
    NumericFunction.read (tint.toObject later).2 (tint.toObject later).1 = .ok tint := by
  have isTold := isTold_of_grayTint isTint
  obtain ⟨samples, -, isThrough⟩ := bind_eq_ok.1 isTint
  obtain rfl := pure_eq_ok.1 isThrough
  exact NumericFunction.read_toObject_sampled isTold later

/-- The partner in gray of a space is read from what is stored for it in any document, if the last index
of each palette that stands in the space is a byte. -/
theorem Stands.read_toObject_toGray (stands : space.Stands document)
    (converted : space.toGray = .ok gray) (later : Document) :
    read (gray.toObject later).2 (gray.toObject later).1 = .ok gray := by
  have isGray (document : Document) : read document (.named "DeviceGray") = .ok .deviceGray :=
    read_named rfl
  unfold ColorSpace.toGray at converted
  split at converted
  next =>
    obtain rfl := Except.ok.inj converted
    exact read_named rfl
  next =>
    obtain rfl := Except.ok.inj converted
    exact read_patternOver (isGray _)
  next =>
    obtain ⟨palette, -, converted⟩ := bind_eq_ok.1 converted
    obtain rfl := pure_eq_ok.1 converted
    exact read_indexed (isGray _) stands.last_le
  next =>
    obtain ⟨tint, isTint, converted⟩ := bind_eq_ok.1 converted
    obtain rfl := pure_eq_ok.1 converted
    exact read_separation (isGray _) (read_toObject_grayTint isTint later) _
  next =>
    obtain ⟨tint, isTint, converted⟩ := bind_eq_ok.1 converted
    obtain rfl := pure_eq_ok.1 converted
    exact read_deviceN (isGray _) (read_toObject_grayTint isTint later) [_] _
  next =>
    unfold grayOfCount at converted
    split_ifs at converted <;> obtain rfl := Except.ok.inj converted
    · exact isGray _
    · exact read_deviceN (isGray _)
        (NumericFunction.read_toObject_calculator isTold_rgbToGray later) _ none
    · exact read_deviceN (isGray _)
        (NumericFunction.read_toObject_calculator isTold_inksToGray later) _ none

/-! ## Spaces that are stored -/

/-- Whether a space is read from what is stored for it, and every object that was there stays as it
was. -/
def ReadsBack (document : Document) (space : ColorSpace Float32 Float) : Prop :=
  read (space.toObject document).2 (space.toObject document).1 = .ok space ∧
    ∀ target stored, document.find? target = some stored →
      (space.toObject document).2.find? target = some stored

/-- A space that is told is read back. -/
theorem Stands.readsBack (stands : space.Stands document) (isNumbered : document.IsNumbered)
    (areTold : ∀ tint ∈ space.tints, tint.IsTold) : space.ReadsBack document := by
  obtain ⟨gains, isRead⟩ := stands.gains_toObject isNumbered areTold
  exact ⟨isRead, gains.kept⟩

/-- A space that is read from a document is read from what is stored for it, if the sizes of samples in
the functions of its inks are those of machine integers and the real numbers in their programs are read
back from what is written for them.  Its partner in gray always is.  No object that was there before is
changed. -/
theorem readsBack_of_read (isNumbered : document.IsNumbered)
    (isRead : read document object = .ok space) :
    ((∀ tint ∈ space.tints, tint.IsStorable) → space.ReadsBack document) ∧
      ∀ gray, space.toGray = .ok gray → gray.ReadsBack document := by
  obtain ⟨stands, comeFrom⟩ := comesFrom_of_readWithin isRead
  refine ⟨fun areStorable => stands.readsBack isNumbered fun tint among => ?_,
    fun gray converted => ?_⟩
  · obtain ⟨function, isTint⟩ := comeFrom tint among
    exact NumericFunction.isTold_of_readWithin isTint (areStorable tint among)
  · obtain ⟨standsGray, areTold⟩ := stands.toGray converted
    exact standsGray.readsBack isNumbered areTold

/-- A document with a program that weighs three values. -/
def weighed : Document :=
  .ofObjects [(⟨1, 0⟩, (Stream.ofData (NumericFunction.entriesOf
    ⟨NumericFunction.unitIntervals 3, some (NumericFunction.unitIntervals 1)⟩ 4 [])
    (Calculator.print NumericFunction.weighing)).toObject)] Table.empty

/-- Three inks with this program are read from what is stored for them, and so is their partner in gray;
the program stays in the document. -/
theorem readsBack_of_read_weighed :
    ∃ space gray : ColorSpace Float32 Float,
      read weighed (.array [.named "DeviceN",
        .array (["Red", "Green", "Blue"].map fun colorant => .name (Text.toBytes colorant)),
        .named "DeviceRGB", .reference ⟨1, 0⟩]) = .ok space ∧
      space = .deviceN ["Red", "Green", "Blue"] .deviceRgb .rgbToGray none ∧
      space.ReadsBack weighed ∧
      space.toGray = .ok gray ∧ gray = .deviceN ["R", "G", "B"] .deviceGray .rgbToGray none ∧
      gray.ReadsBack weighed := by
  have isTint : NumericFunction.read weighed (.reference ⟨1, 0⟩) = .ok .rgbToGray := by
    refine NumericFunction.read_of_readWithin
      ((NumericFunction.readWithin_of_resolve (resolve_reference rfl rfl)).trans
        (NumericFunction.readWithin_calculator 0 ?_))
    exact isTold_rgbToGray
  have isRead := read_deviceN (read_named rfl : read weighed (.named "DeviceRGB") = .ok .deviceRgb) isTint
    ["Red", "Green", "Blue"] none
  obtain ⟨readsBack, partner⟩ := readsBack_of_read (isNumbered_ofObjects _ _) isRead
  refine ⟨_, _, isRead, rfl, readsBack fun tint among => ?_, rfl, rfl, partner _ rfl⟩
  obtain rfl : tint = .rgbToGray := List.mem_singleton.1 among
  exact isTold_rgbToGray

end ColorSpace
end Monochrome
