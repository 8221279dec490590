import Monochrome.Proofs.Binary.Single
import Monochrome.Proofs.Calculator.Notation
import Monochrome.Proofs.ColorSpace.Agreeing
import Monochrome.Proofs.Filter.StoredContent
import Monochrome.Proofs.Object.Gaining

/-!
# Functions are read as they were stored

A function with samples or a program becomes a stream of its own, the other ones are dictionaries that
hold what they are made of.  A document only gains streams while a function is stored, and the
function is read from what it was stored as.  That needs sizes of samples that an integer can tell, and
real numbers in programs that are read back from what is written for them.
-/

namespace Monochrome

open Document Limited Outcome

/-! ## Entries -/

/-- An entry of a list with distinct keys is found under its key. -/
theorem Table.findIn_of_mem {κ α : Type} [DecidableEq κ] {entries : List (κ × α)} {key : κ} {value : α}
    (distinct : (entries.map Prod.fst).Nodup) (among : (key, value) ∈ entries) :
    findIn key entries = some value := by
  induction entries with
  | nil => cases among
  | cons first rest inductionHypothesis =>
      rw [List.map_cons, List.nodup_cons] at distinct
      rcases List.mem_cons.1 among with rfl | later
      · simp [findIn]
      · have differ : first.1 ≠ key := by
          rintro rfl
          exact distinct.1 (List.mem_map.2 ⟨_, later, rfl⟩)
        simp [findIn, differ, inductionHypothesis distinct.2 later]

namespace Dictionary

variable {entries : List (String × Object)} {key : String} {value : Object}

/-- The entries of a list with distinct keys are found. -/
theorem get?_ofEntries (distinct : ((entries.map Prod.fst).map Bytes.ascii).Nodup)
    (among : (key, value) ∈ entries) : (ofEntries entries).get? key = some value := by
  have sameKeys : (entries.map fun entry => (Bytes.ascii entry.1, entry.2)).map Prod.fst =
      (entries.map Prod.fst).map Bytes.ascii := by simp
  rw [← sameKeys] at distinct
  rw [get?, ofEntries, Table.find?_ofList distinct, Table.findIn_of_mem distinct]
  exact List.mem_map.2 ⟨_, among, rfl⟩

/-- Nothing is found under a key that no entry of a list has. -/
theorem get?_ofEntries_eq_none (distinct : ((entries.map Prod.fst).map Bytes.ascii).Nodup)
    (absent : Bytes.ascii key ∉ (entries.map Prod.fst).map Bytes.ascii) :
    (ofEntries entries).get? key = none := by
  have sameKeys : (entries.map fun entry => (Bytes.ascii entry.1, entry.2)).map Prod.fst =
      (entries.map Prod.fst).map Bytes.ascii := by simp
  rw [← sameKeys] at distinct absent
  rw [get?, ofEntries, Table.find?_ofList distinct, Table.findIn_eq_none absent]

end Dictionary

section Entries

variable {document : Document} {entries : Dictionary} {key : String} {value : Object}

/-- An integer under a key is read. -/
theorem Document.integerEntry?_of_get? {number : Int64}
    (found : entries.get? key = some (.integer number)) :
    document.integerEntry? entries key = .ok (some number) := by
  rw [Document.integerEntry?, entry?, found]
  show (do return (← some <$> document.resolve (.integer number)).bind Object.integer?) = _
  rw [resolve_of_value rfl]
  rfl

/-- Real numbers under a key are read. -/
theorem Document.numbersOr_of_get? {default values : List Float32}
    (found : entries.get? key = some (Object.reals values)) :
    document.numbersOr entries key default = .ok values := by
  rw [numbersOr, found]
  exact numbers_reals document values

/-- The data of a stream that names no filters is its content. -/
theorem Stream.content_of_noFilter {stream : Stream} (noFilter : stream.entries.get? "Filter" = none)
    (noShort : stream.entries.get? "F" = none) (noParameters : stream.entries.get? "DecodeParms" = none)
    (noShortParameters : stream.entries.get? "DP" = none) :
    stream.content document = .ok stream.data := by
  have isChain : Filter.chain document stream.entries = .ok [] := by
    simp only [Filter.chain, Filter.names, Filter.parameterDictionaries, eitherEntry?, entry?, noFilter,
      noShort, noParameters, noShortParameters]
    rfl
  rw [content, decode, isChain]
  rfl

end Entries

namespace NumericFunction

variable {document later : Document} {object value : Object} {bounds : Bounds Float32}

/-- Whether the dictionary of a function tells its type and its bounds. -/
structure Heads (entries : Dictionary) (type : Int64) (bounds : Bounds Float32) : Prop where
  type : entries.get? "FunctionType" = some (.integer type)
  domain : entries.get? "Domain" = some (Object.reals bounds.domain)
  range : entries.get? "Range" = bounds.range.map Object.reals

/-- The length of a stream does not tell anything of its function. -/
theorem Heads.ofData {entries : Dictionary} {type : Int64} (heads : Heads entries type bounds)
    (data : Bytes) : Heads (Stream.ofData entries data).entries type bounds where
  type := (Stream.get?_ofData (by decide)).trans heads.type
  domain := (Stream.get?_ofData (by decide)).trans heads.domain
  range := (Stream.get?_ofData (by decide)).trans heads.range

/-- The keys of the entries that every function can have. -/
def headKeys : List String :=
  ["Domain", "Range", "FunctionType"]

section Entries

variable {type : Int64} {more : List (String × Object)}
  (distinct : ((headKeys ++ more.map Prod.fst).map Bytes.ascii).Nodup)

/-- The keys of the dictionary of a function are among those that every function can have, and its
own. -/
theorem keys_entriesOf : List.Sublist
    (((boundsEntries bounds ++ ("FunctionType", .integer type) :: more).map Prod.fst).map Bytes.ascii)
    ((headKeys ++ more.map Prod.fst).map Bytes.ascii) := by
  refine List.Sublist.map _ ?_
  rw [boundsEntries, headKeys]
  cases bounds.range <;> simp

include distinct

/-- The dictionary of a function has the entries that are its own. -/
theorem get?_entriesOf {key : String} {value : Object} (among : (key, value) ∈ more) :
    (entriesOf bounds type more).get? key = some value :=
  Dictionary.get?_ofEntries (keys_entriesOf.nodup distinct)
    (List.mem_append_right _ (List.mem_cons_of_mem _ among))

/-- The dictionary of a function has no other entries. -/
theorem get?_entriesOf_eq_none {key : String}
    (absent : Bytes.ascii key ∉ (headKeys ++ more.map Prod.fst).map Bytes.ascii) :
    (entriesOf bounds type more).get? key = none :=
  Dictionary.get?_ofEntries_eq_none (keys_entriesOf.nodup distinct) fun among =>
    absent (keys_entriesOf.subset among)

/-- The data of the stream of a function is its content. -/
theorem content_ofData (document : Document) (data : Bytes)
    (noFilters : ∀ key ∈ ["Filter", "F", "DecodeParms", "DP"],
      Bytes.ascii key ∉ (headKeys ++ more.map Prod.fst).map Bytes.ascii) :
    (Stream.ofData (entriesOf bounds type more) data).content document = .ok data := by
  have absent (key : String) (isFilter : key ∈ ["Filter", "F", "DecodeParms", "DP"])
      (isOther : Bytes.ascii "Length" ≠ Bytes.ascii key) :
      (Stream.ofData (entriesOf bounds type more) data).entries.get? key = none :=
    (Stream.get?_ofData isOther).trans (get?_entriesOf_eq_none distinct (noFilters key isFilter))
  exact Stream.content_of_noFilter (absent _ (by decide) (by decide)) (absent _ (by decide) (by decide))
    (absent _ (by decide) (by decide)) (absent _ (by decide) (by decide))

/-- The dictionary of a function tells its type and its bounds. -/
theorem heads_entriesOf : Heads (entriesOf bounds type more) type bounds where
  type := Dictionary.get?_ofEntries (keys_entriesOf.nodup distinct) (by simp)
  domain := Dictionary.get?_ofEntries (keys_entriesOf.nodup distinct) (by
    rw [boundsEntries]
    cases bounds.range <;> simp)
  range := by
    cases hasRange : bounds.range with
    | some range =>
        refine Dictionary.get?_ofEntries (keys_entriesOf.nodup distinct) ?_
        rw [boundsEntries, hasRange]
        simp
    | none =>
        refine Dictionary.get?_ofEntries_eq_none (keys_entriesOf.nodup distinct) ?_
        rw [boundsEntries, hasRange]
        have notLater := (List.nodup_cons.1 (List.nodup_cons.1 distinct).2).1
        have differ : Bytes.ascii "Range" ≠ Bytes.ascii "Domain" := by decide
        exact fun among => (List.mem_cons.1 among).elim differ notLater

end Entries

/-! ## Reading what is stored -/

/-- What a function is read from is the value that an object stands for. -/
theorem readWithin_of_resolve {depth : Nat} (stands : document.resolve object = .ok value) :
    readWithin document depth object = readWithin document depth value := by
  cases depth with
  | zero => rfl
  | succ depth =>
      rw [readWithin, readWithin, stands, resolve_of_value (isReference_of_resolve stands)]

/-- The range of a function is read, if it has one. -/
theorem mapM_numbers (document : Document) (range : Option (List Float32)) :
    (range.map Object.reals).mapM document.numbers = .ok range := by
  cases range with
  | none => rfl
  | some values =>
      show some <$> document.numbers (Object.reals values) = _
      rw [numbers_reals]
      rfl

/-- What stands under a key that must be there. -/
theorem require_of_get? {entries : Dictionary} {key : String}
    (found : entries.get? key = some value) : entries.require key = .ok value :=
  Dictionary.require_eq_ok.2 found

/-- A power is read from its dictionary. -/
theorem readWithin_exponential {start finish : List Float32} {exponent : Float32} (depth : Nat) :
    readWithin document (depth + 1) (.dictionary (entriesOf bounds 2
      [("C0", Object.reals start), ("C1", Object.reals finish), ("N", .real exponent)])) =
      .ok (.exponential bounds start finish exponent) := by
  obtain ⟨more, isMore⟩ : ∃ more, more =
    [("C0", Object.reals start), ("C1", Object.reals finish), ("N", Object.real exponent)] := ⟨_, rfl⟩
  have distinct : ((headKeys ++ more.map Prod.fst).map Bytes.ascii).Nodup := by
    rw [isMore]
    show ((headKeys ++ ["C0", "C1", "N"]).map Bytes.ascii).Nodup
    decide
  obtain ⟨isType, isDomain, isRange⟩ : Heads (entriesOf bounds 2 more) 2 bounds :=
    heads_entriesOf distinct
  have isStart : (entriesOf bounds 2 more).get? "C0" = some (Object.reals start) :=
    get?_entriesOf distinct (by simp [isMore])
  have isFinish : (entriesOf bounds 2 more).get? "C1" = some (Object.reals finish) :=
    get?_entriesOf distinct (by simp [isMore])
  have isExponent : (entriesOf bounds 2 more).get? "N" = some (.real exponent) :=
    get?_entriesOf distinct (by simp [isMore])
  rw [← isMore, readWithin, resolve_of_value rfl]
  simp only [ok_bind, readForm, integerEntry?_of_get? isType, require_of_get? isDomain, isRange,
    numbers_reals, mapM_numbers, numbersOr_of_get? isStart, numbersOr_of_get? isFinish,
    require_of_get? isExponent]
  rfl

/-- A stitched function is read from its dictionary, if its parts are. -/
theorem readWithin_stitched {parts : List (NumericFunction Float32 Float)} {items : List Object}
    {limits encode : List Float32} {depth : Nat}
    (areParts : items.mapM (readWithin document depth) = .ok parts) :
    readWithin document (depth + 1) (.dictionary (entriesOf bounds 3
      [("Functions", .array items), ("Bounds", Object.reals limits),
        ("Encode", Object.reals encode)])) =
      .ok (.stitched bounds parts limits encode) := by
  obtain ⟨more, isMore⟩ : ∃ more, more = [("Functions", Object.array items),
    ("Bounds", Object.reals limits), ("Encode", Object.reals encode)] := ⟨_, rfl⟩
  have distinct : ((headKeys ++ more.map Prod.fst).map Bytes.ascii).Nodup := by
    rw [isMore]
    show ((headKeys ++ ["Functions", "Bounds", "Encode"]).map Bytes.ascii).Nodup
    decide
  obtain ⟨isType, isDomain, isRange⟩ : Heads (entriesOf bounds 3 more) 3 bounds :=
    heads_entriesOf distinct
  have isArray : (entriesOf bounds 3 more).get? "Functions" = some (.array items) :=
    get?_entriesOf distinct (by simp [isMore])
  have isLimits : (entriesOf bounds 3 more).get? "Bounds" = some (Object.reals limits) :=
    get?_entriesOf distinct (by simp [isMore])
  have isEncode : (entriesOf bounds 3 more).get? "Encode" = some (Object.reals encode) :=
    get?_entriesOf distinct (by simp [isMore])
  rw [← isMore, readWithin, resolve_of_value rfl]
  simp only [ok_bind, readForm, integerEntry?_of_get? isType, require_of_get? isDomain, isRange,
    numbers_reals, mapM_numbers, require_of_get? isArray, require_of_get? isLimits,
    require_of_get? isEncode]
  rw [if_neg (by decide), if_pos trivial, resolve_of_value rfl]
  simp only [ok_bind, areParts]
  rfl

/-- The size that is read from the integer that tells one. -/
def sizeRead (size : Nat) : Nat :=
  Scalar.toNat (Scalar.downTo (1.0 : Float32) (Scalar.ofInt (Int64.ofNat size).toInt))

/-- Whether a size is read from the integer that tells it. -/
def IsSize (size : Nat) : Prop :=
  Scalar.toNat (Scalar.downTo (1.0 : Float32) (Scalar.ofInt (Int64.ofNat size).toInt)) = size

/-- A table of samples is read from its stream, with the sizes that are read from the integers that tell
its own. -/
theorem readTable_ofData {table : SampleTable Float32} {range : Option (List Float32)}
    (distinct : ((headKeys ++ (tableEntries table).map Prod.fst).map Bytes.ascii).Nodup) :
    readTable document (Stream.ofData (entriesOf bounds 0 (tableEntries table)) table.samples) range =
      .ok { table with size := table.size.map sizeRead } := by
  have isContent : (Stream.ofData (entriesOf bounds 0 (tableEntries table)) table.samples).content
      document = .ok table.samples := by
    refine content_ofData distinct document table.samples ?_
    show ∀ key ∈ ["Filter", "F", "DecodeParms", "DP"], Bytes.ascii key ∉
      (headKeys ++ ["Size", "BitsPerSample", "Encode", "Decode"]).map Bytes.ascii
    decide
  have isEntry {key : String} {value : Object} (among : (key, value) ∈ tableEntries table)
      (isOther : Bytes.ascii "Length" ≠ Bytes.ascii key) :
      (Stream.ofData (entriesOf bounds 0 (tableEntries table)) table.samples).entries.get? key =
        some value :=
    (Stream.get?_ofData isOther).trans (get?_entriesOf distinct among)
  have isSize := isEntry (List.mem_cons_self) (by decide)
  have isBits := isEntry (List.mem_cons_of_mem _ List.mem_cons_self) (by decide)
  have isEncode := isEntry
    (List.mem_cons_of_mem _ (List.mem_cons_of_mem _ List.mem_cons_self)) (by decide)
  have isDecode := isEntry (List.mem_cons_of_mem _
    (List.mem_cons_of_mem _ (List.mem_cons_of_mem _ List.mem_cons_self))) (by decide)
  have sizes : document.numbers (.array (table.size.map fun length => .integer (Int64.ofNat length))) =
      .ok (table.size.map fun length => Scalar.ofInt (Int64.ofNat length).toInt) :=
    numbers_map (fun _ => rfl) document table.size
  have bits : UInt8.ofInt (Int64.ofNat table.bits.toNat).toInt = table.bits := by
    have small := table.bits.toNat_lt
    have isByte : ((table.bits.toNat : Int) % 2 ^ 8).toNat = table.bits.toNat := by omega
    rw [Int64.toInt_ofNat_of_lt (Nat.lt_trans small (by decide)), UInt8.ofInt, isByte,
      UInt8.ofNat_toNat]
  simp only [readTable, require_of_get? isSize, ok_bind, sizes, integerEntry?_of_get? isBits,
    numbersOr_of_get? isEncode, isDecode, numbers_reals, isContent, List.map_map]
  show Except.ok (SampleTable.mk (table.size.map sizeRead)
    (UInt8.ofInt (Int64.ofNat table.bits.toNat).toInt) _ _ _) = _
  rw [bits]

/-- A function through samples is read from its stream, with the sizes that are read from the integers
that tell its own. -/
theorem readWithin_sampled {table : SampleTable Float32} (depth : Nat) :
    readWithin document (depth + 1)
      (Stream.ofData (entriesOf bounds 0 (tableEntries table)) table.samples).toObject =
      .ok (.sampled bounds { table with size := table.size.map sizeRead }) := by
  have distinct : ((headKeys ++ (tableEntries table).map Prod.fst).map Bytes.ascii).Nodup := by
    show ((headKeys ++ ["Size", "BitsPerSample", "Encode", "Decode"]).map Bytes.ascii).Nodup
    decide
  have heads : Heads (entriesOf bounds 0 (tableEntries table)) 0 bounds := heads_entriesOf distinct
  obtain ⟨isType, isDomain, isRange⟩ := heads.ofData table.samples
  rw [readWithin, resolve_of_value rfl]
  simp only [ok_bind, readForm, Stream.toObject, integerEntry?_of_get? isType,
    require_of_get? isDomain, isRange, numbers_reals, mapM_numbers, readTable_ofData distinct]
  rfl

/-- A program is read from its stream, if its real numbers are read back. -/
theorem readWithin_calculator {program : Calculator.Program Float} (depth : Nat)
    (readBack : Calculator.Instruction.AllReadBack program) :
    readWithin document (depth + 1)
      (Stream.ofData (entriesOf bounds 4 []) (Calculator.print program)).toObject =
      .ok (.calculator bounds program) := by
  have distinct : ((headKeys ++ ([] : List (String × Object)).map Prod.fst).map Bytes.ascii).Nodup := by
    decide
  have heads : Heads (entriesOf bounds 4 []) 4 bounds := heads_entriesOf distinct
  obtain ⟨isType, isDomain, isRange⟩ := heads.ofData (Calculator.print program)
  have isProgram : readProgram document
      (Stream.ofData (entriesOf bounds 4 []) (Calculator.print program)) = .ok program := by
    rw [readProgram, content_ofData distinct document _ (by decide), ok_bind,
      Calculator.read_print readBack]
    rfl
  rw [readWithin, resolve_of_value rfl]
  simp only [ok_bind, readForm, Stream.toObject, integerEntry?_of_get? isType,
    require_of_get? isDomain, isRange, numbers_reals, mapM_numbers, isProgram]
  rfl

/-! ## Functions that are told by what is stored -/

mutual

/-- Whether the sizes in a function are read from integers, and the real numbers in it are read back
from what is written for them. -/
def IsTold : NumericFunction Float32 Float → Prop
  | sampled _ table => ∀ size ∈ table.size, IsSize size
  | exponential _ _ _ _ => True
  | stitched _ parts _ _ => AreTold parts
  | calculator _ program => Calculator.Instruction.AllReadBack program

/-- Whether functions are told by what is stored for them. -/
def AreTold : List (NumericFunction Float32 Float) → Prop
  | [] => True
  | function :: rest => function.IsTold ∧ AreTold rest

end

/-- Functions that are read from objects one by one are read within one depth. -/
theorem exists_mapM_readWithin {objects : List Object}
    {functions : List (NumericFunction Float32 Float)}
    (each : List.Forall₂ (fun object function => read document object = .ok function) objects
      functions) :
    ∃ depth, objects.mapM (readWithin document depth) = .ok functions := by
  induction each with
  | nil => exact ⟨0, rfl⟩
  | cons isRead others inductionHypothesis =>
      rename_i object function objects functions
      obtain ⟨depth, areRead⟩ := inductionHypothesis
      refine ⟨max (readingBudget document object) depth, ?_⟩
      have first := readWithin_upTo (Nat.le_max_left (readingBudget document object) depth) object
        (by rw [← read, isRead]; nofun)
      have rest : objects.mapM (readWithin document (max (readingBudget document object) depth)) =
          objects.mapM (readWithin document depth) :=
        UpTo.mapM (readWithin_upTo (Nat.le_max_right _ depth)) (by rw [areRead]; nofun)
      rw [List.mapM_cons, first, ← read, isRead, rest, areRead]
      rfl

/-- A function is read from the stream that is added for it. -/
theorem read_addStream {entries : Dictionary} {data : Bytes} {function : NumericFunction Float32 Float}
    (isRead : ∀ later, readWithin later 1 (Stream.ofData entries data).toObject = .ok function)
    (document : Document) :
    read (addStream entries data document).2 (addStream entries data document).1 = .ok function := by
  refine read_of_readWithin (readWithin_of_resolve ?_ |>.trans (isRead _))
  exact resolve_reference ((find?_add _ _ _).trans (if_pos rfl)) rfl

/-- A function with a table of samples is read from what is stored for it in any document. -/
theorem read_toObject_sampled {bounds : Bounds Float32} {table : SampleTable Float32}
    (isTold : (sampled bounds table).IsTold) (document : Document) :
    read ((sampled bounds table).toObject document).2 ((sampled bounds table).toObject document).1 =
      .ok (sampled bounds table) := by
  rw [IsTold] at isTold
  have sameSizes : table.size.map sizeRead = table.size :=
    (List.map_congr_left isTold).trans (List.map_id' _)
  rw [toObject]
  refine read_addStream (fun later => (readWithin_sampled 0).trans ?_) document
  rw [sameSizes]

/-- A program is read from what is stored for it in any document. -/
theorem read_toObject_calculator {bounds : Bounds Float32} {program : Calculator.Program Float}
    (isTold : (calculator bounds program : NumericFunction Float32 Float).IsTold)
    (document : Document) :
    read ((calculator bounds program).toObject document).2
      ((calculator bounds program).toObject document).1 = .ok (calculator bounds program) := by
  rw [IsTold] at isTold
  rw [toObject]
  exact read_addStream (fun later => readWithin_calculator 0 isTold) document

mutual

/-- A function is read from what is stored for it. -/
theorem gains_toObject : ∀ (function : NumericFunction Float32 Float) (_ : function.IsTold)
    (document : Document) (_ : document.IsNumbered),
    document.Gains (function.toObject document).2 ∧
      read (function.toObject document).2 (function.toObject document).1 = .ok function
  | sampled bounds table, isTold, document, isNumbered => by
      refine ⟨?_, read_toObject_sampled isTold document⟩
      rw [toObject]
      exact gains_add isNumbered _
  | exponential bounds start finish exponent, _, document, isNumbered => by
      rw [toObject]
      exact ⟨.refl isNumbered, read_of_readWithin (readWithin_exponential 0)⟩
  | stitched bounds parts limits encode, isTold, document, isNumbered => by
      rw [IsTold] at isTold
      obtain ⟨gains, each⟩ := gains_toObjects parts isTold document isNumbered
      obtain ⟨depth, areParts⟩ := exists_mapM_readWithin each
      rw [toObject]
      exact ⟨gains, read_of_readWithin (readWithin_stitched areParts)⟩
  | calculator bounds program, isTold, document, isNumbered => by
      refine ⟨?_, read_toObject_calculator isTold document⟩
      rw [toObject]
      exact gains_add isNumbered _

/-- Functions are read from what is stored for them. -/
theorem gains_toObjects : ∀ (functions : List (NumericFunction Float32 Float))
    (_ : AreTold functions) (document : Document) (_ : document.IsNumbered),
    document.Gains (toObjects functions document).2 ∧
      List.Forall₂ (fun object function => read (toObjects functions document).2 object = .ok function)
        (toObjects functions document).1 functions
  | [], _, document, isNumbered => by
      rw [toObjects]
      exact ⟨.refl isNumbered, .nil⟩
  | function :: rest, areTold, document, isNumbered => by
      rw [AreTold] at areTold
      obtain ⟨gains, isRead⟩ := gains_toObject function areTold.1 document isNumbered
      obtain ⟨gainsMore, areRead⟩ := gains_toObjects rest areTold.2 _ gains.isNumbered
      rw [toObjects]
      exact ⟨gains.trans gainsMore, .cons (carries_read gainsMore.leads trivial _ isRead) areRead⟩

end

/-! ## Functions that are read -/

mutual

/-- Whether the sizes in a function are those of machine integers, and the real numbers in it are read
back from what is written for them. -/
def IsStorable : NumericFunction Float32 Float → Prop
  | sampled _ table => ∀ size ∈ table.size, size < 2 ^ 63
  | exponential _ _ _ _ => True
  | stitched _ parts _ _ => AreStorable parts
  | calculator _ program => Calculator.Instruction.AllReadBack program

/-- Whether functions are storable. -/
def AreStorable : List (NumericFunction Float32 Float) → Prop
  | [] => True
  | function :: rest => function.IsStorable ∧ AreStorable rest

end

/-- A size that is read is read again from the integer that tells it, if it is less than the greatest
integers. -/
theorem isSize_toNat {length : Float32}
    (short : Scalar.toNat (Scalar.downTo 1.0 length) < 2 ^ 63) :
    IsSize (Scalar.toNat (Scalar.downTo 1.0 length)) := by
  rw [IsSize, Int64.toInt_ofNat_of_lt short]
  exact Float32Scalar.toNat_downTo_ofNat short

/-- The sizes of a table of samples that is read are sizes. -/
theorem areSizes_of_readTable {stream : Stream} {range : Option (List Float32)}
    {table : SampleTable Float32} (isRead : readTable document stream range = .ok table)
    (short : ∀ size ∈ table.size, size < 2 ^ 63) : ∀ size ∈ table.size, IsSize size := by
  obtain ⟨entry, -, isRead⟩ := bind_eq_ok.1 isRead
  obtain ⟨lengths, -, isRead⟩ := bind_eq_ok.1 isRead
  obtain ⟨bits, -, isRead⟩ := bind_eq_ok.1 isRead
  obtain ⟨encode, -, isRead⟩ := bind_eq_ok.1 isRead
  have isSize : table.size = lengths.map fun length => Scalar.toNat (Scalar.downTo 1.0 length) := by
    split at isRead
    case h_3 => cases isRead
    all_goals
      obtain ⟨decode, -, isRead⟩ := bind_eq_ok.1 isRead
      obtain ⟨samples, -, isRead⟩ := bind_eq_ok.1 isRead
      exact Except.ok.inj isRead ▸ rfl
  intro size among
  have small := short size among
  rw [isSize] at among
  obtain ⟨length, -, rfl⟩ := List.mem_map.1 among
  exact isSize_toNat small

/-- Functions that are read from objects are told if each is that is storable. -/
theorem areTold_of_forall₂ {depth : Nat} {objects : List Object}
    {functions : List (NumericFunction Float32 Float)}
    (areRead : List.Forall₂ (fun object function => readWithin document depth object = .ok function)
      objects functions)
    (each : ∀ {object function}, readWithin document depth object = .ok function →
      function.IsStorable → function.IsTold)
    (areStorable : AreStorable functions) : AreTold functions := by
  induction areRead with
  | nil =>
      rw [AreTold]
      trivial
  | cons isRead _ inductionHypothesis =>
      rw [AreStorable] at areStorable
      rw [AreTold]
      exact ⟨each isRead areStorable.1, inductionHypothesis areStorable.2⟩

/-- A function that is read is told by what is stored for it, if it is storable. -/
theorem isTold_of_readWithin {depth : Nat} {function : NumericFunction Float32 Float}
    (isRead : readWithin document depth object = .ok function) (isStorable : function.IsStorable) :
    function.IsTold := by
  induction depth generalizing object function with
  | zero => cases isRead
  | succ depth inductionHypothesis =>
      obtain ⟨value, -, isRead⟩ := bind_eq_ok.1 isRead
      obtain ⟨⟨entries, stream⟩, -, isRead⟩ := bind_eq_ok.1 isRead
      obtain ⟨type, -, isRead⟩ := bind_eq_ok.1 isRead
      cases type with
      | none => cases isRead
      | some type =>
      obtain ⟨_, -, isRead⟩ := bind_eq_ok.1 isRead
      obtain ⟨domain, -, isRead⟩ := bind_eq_ok.1 isRead
      obtain ⟨range, -, isRead⟩ := bind_eq_ok.1 isRead
      dsimp only at isRead
      split at isRead
      · obtain ⟨start, -, isRead⟩ := bind_eq_ok.1 isRead
        obtain ⟨finish, -, isRead⟩ := bind_eq_ok.1 isRead
        obtain ⟨_, -, isRead⟩ := bind_eq_ok.1 isRead
        obtain ⟨_, -, isRead⟩ := bind_eq_ok.1 isRead
        obtain ⟨exponent, -, isRead⟩ := bind_eq_ok.1 isRead
        obtain rfl := pure_eq_ok.1 isRead
        rw [IsTold]
        trivial
      · split at isRead
        · obtain ⟨_, -, isRead⟩ := bind_eq_ok.1 isRead
          obtain ⟨functions, -, isRead⟩ := bind_eq_ok.1 isRead
          cases functions with
          | array items =>
              obtain ⟨parts, areRead, isRead⟩ := bind_eq_ok.1 isRead
              obtain ⟨_, -, isRead⟩ := bind_eq_ok.1 isRead
              obtain ⟨limits, -, isRead⟩ := bind_eq_ok.1 isRead
              obtain ⟨_, -, isRead⟩ := bind_eq_ok.1 isRead
              obtain ⟨encode, -, isRead⟩ := bind_eq_ok.1 isRead
              obtain rfl := pure_eq_ok.1 isRead
              rw [IsStorable] at isStorable
              rw [IsTold]
              exact areTold_of_forall₂ (mapM_eq_ok.1 areRead) inductionHypothesis isStorable
          | _ => cases isRead
        · cases stream with
          | none => cases isRead
          | some stream =>
              dsimp only at isRead
              split at isRead
              · obtain ⟨table, isTable, isRead⟩ := bind_eq_ok.1 isRead
                obtain rfl := pure_eq_ok.1 isRead
                rw [IsStorable] at isStorable
                rw [IsTold]
                exact areSizes_of_readTable isTable isStorable
              · split at isRead
                · obtain ⟨program, -, isRead⟩ := bind_eq_ok.1 isRead
                  obtain rfl := pure_eq_ok.1 isRead
                  rw [IsStorable] at isStorable
                  rwa [IsTold]
                · cases isRead

end NumericFunction
end Monochrome
