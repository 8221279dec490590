import Monochrome.Content.Basic
import Monochrome.Proofs.Content.Plain

/-!
# Inline images read back

An inline image is written with the length of its data in its header.  So its data is taken by
length, whatever it contains, and its dictionary is found again up to the entries that tell
the length.
-/

namespace Monochrome
namespace Table

variable {κ : Type} [DecidableEq κ] {α : Type u}

/-- Whether every key has one entry only, as it has in a table that is built by inserting. -/
def HasDistinctKeys (table : Table κ α) : Prop :=
  (table.entries.map Prod.fst).Nodup

/-- A key that no entry has is not found. -/
theorem findIn_eq_none {key : κ} {entries : List (κ × α)} (absent : key ∉ entries.map Prod.fst) :
    findIn key entries = none := by
  induction entries with
  | nil => rfl
  | cons entry rest inductionHypothesis =>
      simp only [List.map_cons, List.mem_cons, not_or] at absent
      simp [findIn, Ne.symm absent.1, inductionHypothesis absent.2]

/-- Looking up in entries that follow others. -/
theorem findIn_append (key : κ) (first second : List (κ × α)) :
    findIn key (first ++ second) = (findIn key first).or (findIn key second) := by
  induction first with
  | nil => rfl
  | cons entry rest inductionHypothesis =>
      by_cases atKey : entry.1 = key <;> simp [findIn, atKey, inductionHypothesis]

/-- Leaving out entries under other keys changes nothing. -/
theorem findIn_filter {keep : κ × α → Bool} {key : κ} {entries : List (κ × α)}
    (keeps : ∀ entry ∈ entries, entry.1 = key → keep entry = true) :
    findIn key (entries.filter keep) = findIn key entries := by
  induction entries with
  | nil => rfl
  | cons entry rest inductionHypothesis =>
      have later := inductionHypothesis fun other inRest => keeps other (by simp [inRest])
      by_cases atKey : entry.1 = key
      · simp [findIn, keeps entry (by simp) atKey, atKey]
      · by_cases kept : keep entry = true <;> simp [findIn, kept, atKey, later]

/-- Inserting entries with distinct keys one after the other adds them to a table. -/
theorem find?_foldl_insert {entries : List (κ × α)} (distinct : (entries.map Prod.fst).Nodup)
    (table : Table κ α) (key : κ) :
    (entries.foldl (fun table (key, value) => table.insert key value) table).find? key =
      (findIn key entries).or (table.find? key) := by
  induction entries generalizing table with
  | nil => rfl
  | cons entry rest inductionHypothesis =>
      simp only [List.map_cons, List.nodup_cons] at distinct
      rw [List.foldl_cons, inductionHypothesis distinct.2, find?_insert]
      by_cases atKey : entry.1 = key
      · subst atKey
        simp [findIn, findIn_eq_none distinct.1]
      · simp [findIn, atKey]

/-- In the table of a list with distinct keys the entries of the list are found. -/
theorem find?_ofList {entries : List (κ × α)} (distinct : (entries.map Prod.fst).Nodup)
    (key : κ) : (ofList entries).find? key = findIn key entries := by
  rw [ofList, find?_foldl_insert distinct, find?_empty, Option.or_none]

end Table

namespace InlineImage

/-- The entries that are written for an inline image: those of its dictionary that do not tell
the length, and one that does. -/
def headerEntries (image : Stream) : List (Bytes × Object) :=
  (image.entries.entries.filter fun (key, _) =>
    key != Bytes.ascii "Length" && key != Bytes.ascii "L") ++
      [(Bytes.ascii "L", .integer (Int64.ofNat image.data.length))]

/-- The operands that the header of an inline image is written as. -/
def headerOperands (image : Stream) : List Object :=
  (headerEntries image).flatMap fun (key, value) => [.name key, value]

/-- An inline image is written as its header operands between `BI` and `ID`, its data, and `EI`. -/
theorem print_eq (image : Stream) :
    print image = Bytes.ascii "BI" ++ (32 :: Operation.printOperands (headerOperands image) ++
      (Bytes.ascii "ID" ++ (32 :: image.data ++ [10, 69, 73, 10]))) := by
  have opening : Bytes.ascii "BI " = Bytes.ascii "BI" ++ [32] := by decide
  have word : Text.toBytes "ID" = Bytes.ascii "ID" := by decide
  have closing : Bytes.ascii "\nEI\n" = [10, 69, 73, 10] := by decide
  simp [print, headerOperands, headerEntries, Operation.print, Operation.printOperands, opening,
    word, closing, Object.named]

/-- Alternating keys and values are paired up. -/
theorem pairs_flatMap (entries : List (Bytes × Object)) :
    pairs (entries.flatMap fun (key, value) => [.name key, value]) = .ok entries := by
  induction entries with
  | nil => rfl
  | cons entry rest inductionHypothesis =>
      simp [pairs, inductionHypothesis, pure, Except.pure, bind, Except.bind]

/-- The entries that are written have distinct keys. -/
theorem nodup_headerEntries {image : Stream} (distinct : image.entries.HasDistinctKeys) :
    ((headerEntries image).map Prod.fst).Nodup := by
  rw [headerEntries, List.map_append, List.nodup_append]
  refine ⟨(List.Sublist.map _ List.filter_sublist).nodup distinct, by simp, ?_⟩
  rintro key inKept other inLength rfl
  obtain ⟨entry, kept, rfl⟩ := List.mem_map.1 inKept
  have notLength := (List.mem_filter.1 kept).2
  simp only [Bool.and_eq_true, bne_iff_ne] at notLength
  simp only [List.map_cons, List.map_nil, List.mem_singleton] at inLength
  exact notLength.2 inLength

/-- The dictionary that is read back from a written header. -/
def writtenDictionary (image : Stream) : Dictionary :=
  Table.ofList (headerEntries image)

/-- Every entry that does not tell the length is read back. -/
theorem find?_writtenDictionary {image : Stream} (distinct : image.entries.HasDistinctKeys)
    {key : Bytes} (notLength : key ≠ Bytes.ascii "Length") (notShort : key ≠ Bytes.ascii "L") :
    (writtenDictionary image).find? key = image.entries.find? key := by
  rw [writtenDictionary, Table.find?_ofList (nodup_headerEntries distinct), headerEntries,
    Table.findIn_append, Table.findIn_filter]
  · simp [Table.find?, Table.findIn, Ne.symm notShort]
  · rintro entry _ rfl
    simp [notLength, notShort]

/-- The short entry tells the length of the data. -/
theorem get?_L_writtenDictionary {image : Stream} (distinct : image.entries.HasDistinctKeys) :
    (writtenDictionary image).get? "L" = some (.integer (Int64.ofNat image.data.length)) := by
  rw [Dictionary.get?, writtenDictionary, Table.find?_ofList (nodup_headerEntries distinct),
    headerEntries, Table.findIn_append, Table.findIn_eq_none]
  · simp [Table.findIn]
  · simp

/-- No long entry tells the length of the data. -/
theorem get?_Length_writtenDictionary {image : Stream}
    (distinct : image.entries.HasDistinctKeys) :
    (writtenDictionary image).get? "Length" = none := by
  have differ : Bytes.ascii "Length" ≠ Bytes.ascii "L" := by decide
  rw [Dictionary.get?, writtenDictionary, Table.find?_ofList (nodup_headerEntries distinct),
    headerEntries, Table.findIn_append, Table.findIn_eq_none]
  · simp [Table.findIn, differ.symm]
  · simp

/-- The length of the data is read back from the dictionary. -/
theorem dataLength?_writtenDictionary {image : Stream}
    (distinct : image.entries.HasDistinctKeys) (bounded : image.data.length < 2 ^ 63) :
    dataLength? (writtenDictionary image) = some image.data.length := by
  have value : (Int64.ofNat image.data.length).toInt = image.data.length :=
    Int64.toInt_ofNat_of_lt bounded
  have found : natural? (writtenDictionary image) "Length" "L" = some image.data.length := by
    have notNegative : 0 ≤ Int64.ofNat image.data.length := by
      rw [Int64.le_iff_toInt_le, value]
      exact Int.natCast_nonneg _
    simp [natural?, header?, get?_L_writtenDictionary distinct,
      get?_Length_writtenDictionary distinct, notNegative, value]
  simp [dataLength?, found]

/-- What follows an `EI` that ends a token follows the blanks before it. -/
theorem afterEnd?_blanks {blanks rest : Bytes} (areBlank : ∀ byte ∈ blanks, Bytes.isBlank byte = true)
    (ends : Lexeme.endsToken rest = true) :
    afterEnd? ((blanks ++ (Bytes.ascii "EI" ++ rest)).dropWhile Bytes.isBlank) = some rest := by
  have letter : Bytes.isBlank 69 = false := by decide
  have word : Bytes.ascii "EI" = [69, 73] := by decide
  rw [List.dropWhile_append_of_pos areBlank, word, List.cons_append,
    List.dropWhile_cons_of_neg (by rw [letter]; exact Bool.false_ne_true)]
  exact if_pos ends

/-- Data of a given length is taken whole if blanks follow it, and an `EI` that ends a token. -/
theorem ofLength?_append {data blanks rest : Bytes}
    (areBlank : ∀ byte ∈ blanks, Bytes.isBlank byte = true) (ends : Lexeme.endsToken rest = true) :
    ofLength? data.length (data ++ (blanks ++ (Bytes.ascii "EI" ++ rest))) = some (data, rest) := by
  have within : data.length ≤ (data ++ (blanks ++ (Bytes.ascii "EI" ++ rest))).length := by simp
  rw [ofLength?, if_pos within, List.drop_left, List.take_left, afterEnd?_blanks areBlank ends,
    Option.map_some]

/-- Whether content behind the word `BI` is a dictionary, the word `ID` with a blank, data, blanks, and
an `EI` that ends a token, before the given rest. -/
structure Encloses (content header : Bytes) (dictionary : Dictionary) (blank : UInt8)
    (data blanks rest : Bytes) : Prop where
  word : Lexeme.findWord (Bytes.ascii "ID") content =
    some (header, blank :: (data ++ (blanks ++ (Bytes.ascii "EI" ++ rest))))
  isDictionary : readDictionary header = .ok dictionary
  isBlank : Bytes.isBlank blank = true
  areBlank : ∀ byte ∈ blanks, Bytes.isBlank byte = true
  ends : Lexeme.endsToken rest = true

/-- Data whose length the dictionary tells is read whole, whatever it contains. -/
theorem Encloses.read {content header data blanks rest : Bytes} {dictionary : Dictionary}
    {blank : UInt8} (encloses : Encloses content header dictionary blank data blanks rest)
    (known : dataLength? dictionary = some data.length) :
    read content = .ok (Stream.ofData dictionary data, rest) := by
  rw [InlineImage.read, encloses.word]
  simp only [encloses.isDictionary, dropBlank, if_pos encloses.isBlank, known, Option.bind_some,
    ofLength?_append encloses.areBlank encloses.ends, Option.some_or]

/-- Where the data begins does not depend on the data, nor on what follows it. -/
theorem Encloses.replace {content header data blanks rest : Bytes} {dictionary : Dictionary}
    {blank : UInt8} (encloses : Encloses content header dictionary blank data blanks rest)
    {otherData otherBlanks otherRest : Bytes}
    (areBlank : ∀ byte ∈ otherBlanks, Bytes.isBlank byte = true)
    (ends : Lexeme.endsToken otherRest = true) :
    Encloses (header ++ (Bytes.ascii "ID" ++
        blank :: (otherData ++ (otherBlanks ++ (Bytes.ascii "EI" ++ otherRest)))))
      header dictionary blank otherData otherBlanks otherRest where
  word := Lexeme.findWord_replace (by decide) encloses.word (by simp) rfl
  isDictionary := encloses.isDictionary
  isBlank := encloses.isBlank
  areBlank := areBlank
  ends := ends

/-- A written header is read back as operands. -/
def HeaderReadsBack (image : Stream) : Prop :=
  Operation.readAll (32 :: Operation.printOperands (headerOperands image) ++ Bytes.ascii " ID") =
    some [⟨"ID", headerOperands image⟩]

/-- A header that is read back has operands without streams. -/
theorem HeaderReadsBack.isPlain {image : Stream} (readsBack : HeaderReadsBack image) :
    ∀ operand ∈ headerOperands image, operand.isPlain = true := by
  rcases Operation.isPlain_of_mem_readAll readsBack ⟨"ID", headerOperands image⟩ (by simp) with
    isImage | plain
  · simp at isImage
  · exact plain.operands

/-- A header that is read back gives the dictionary that was written. -/
theorem readDictionary_written {image : Stream} (readsBack : HeaderReadsBack image) :
    readDictionary (32 :: Operation.printOperands (headerOperands image)) =
      .ok (writtenDictionary image) := by
  have even : (headerOperands image).length % 2 = 0 := by
    simp [headerOperands, List.length_flatMap, List.map_const']
  have paired : pairs (headerOperands image) = .ok (headerEntries image) := pairs_flatMap _
  rw [readDictionary, readsBack]
  simp [even, paired, writtenDictionary, pure, Except.pure, bind, Except.bind]

/-- The image that is read back from a written one: its dictionary tells the length twice. -/
def written (image : Stream) : Stream :=
  Stream.ofData (writtenDictionary image) image.data

/-- The word `ID` of a written image is found behind its header. -/
theorem findWord_printed {image : Stream} (readsBack : HeaderReadsBack image) (rest : Bytes) :
    Lexeme.findWord (Bytes.ascii "ID")
        (32 :: (Operation.printOperands (headerOperands image) ++
          (Bytes.ascii "ID" ++ 32 :: rest))) =
      some (32 :: Operation.printOperands (headerOperands image), 32 :: rest) := by
  have passes : Lexeme.PassesOver (Bytes.ascii "ID")
      ([32] ++ Operation.printOperands (headerOperands image)) (Bytes.ascii "ID" ++ 32 :: rest) :=
    (Lexeme.passesOver_byte (by simp)).append
      (Operation.passesOver_printOperands (by decide) readsBack.isPlain)
  have found : Lexeme.findWord (Bytes.ascii "ID") (Bytes.ascii "ID" ++ 32 :: rest) =
      some ([], 32 :: rest) :=
    Lexeme.findWord_keyword (by decide) (by decide +kernel) (Lexeme.endsToken_cons (by decide +kernel))
  simpa [Lexeme.PassesOver, found] using passes

/-- What follows the word `BI` of a written image is read as that image, whatever its data. -/
theorem read_printed {image : Stream} (distinct : image.entries.HasDistinctKeys)
    (bounded : image.data.length < 2 ^ 63) (readsBack : HeaderReadsBack image) (rest : Bytes) :
    read (32 :: (Operation.printOperands (headerOperands image) ++
      (Bytes.ascii "ID" ++ 32 :: (image.data ++ ([10, 69, 73, 10] ++ rest))))) =
        .ok (written image, 10 :: rest) := by
  have word : Bytes.ascii "EI" = [69, 73] := by decide
  have encloses : Encloses (32 :: (Operation.printOperands (headerOperands image) ++
      (Bytes.ascii "ID" ++ 32 :: (image.data ++ ([10, 69, 73, 10] ++ rest)))))
      (32 :: Operation.printOperands (headerOperands image)) (writtenDictionary image) 32 image.data
      [10] (10 :: rest) := {
    word := by
      rw [findWord_printed readsBack, word]
      rfl
    isDictionary := readDictionary_written readsBack
    isBlank := by decide
    areBlank := List.forall_mem_singleton.2 rfl
    ends := Lexeme.endsToken_cons (by decide +kernel) }
  exact encloses.read (dataLength?_writtenDictionary distinct bounded)

end InlineImage
end Monochrome
