import Monochrome.Content.Grammar
import Monochrome.Proofs.Content.Printing
import Mathlib.Data.List.TakeWhile
import Mathlib.Data.List.TakeDrop

/-!
# Plain operations

An operation is plain if its keyword is made of letters and its operands hold no stream.  Whatever
is read from content is plain, inline images apart, and a search for `BI` passes over every plain
operation that is written.
-/

namespace Monochrome
namespace Object

mutual

/-- Whether an object holds no stream. -/
def isPlain : Object → Bool
  | array items => allPlain items
  | dictionary ⟨entries⟩ => allValuesPlain entries
  | stream _ _ => false
  | _ => true

/-- Whether no object of a list holds a stream. -/
def allPlain : List Object → Bool
  | [] => true
  | item :: rest => item.isPlain && allPlain rest

/-- Whether no value of a list of entries holds a stream. -/
def allValuesPlain : List (Bytes × Object) → Bool
  | [] => true
  | (_, value) :: rest => value.isPlain && allValuesPlain rest

end

/-- A list of objects holds no stream if none of them does. -/
theorem allPlain_iff {items : List Object} :
    allPlain items = true ↔ ∀ item ∈ items, item.isPlain = true := by
  induction items with
  | nil => simp [allPlain]
  | cons item rest inductionHypothesis => simp [allPlain, inductionHypothesis]

/-- An entry that is put into entries without streams adds none. -/
theorem allValuesPlain_insertIn
    {key : Bytes}
    {value : Object}
    {entries : List (Bytes × Object)}
    (plainValue : value.isPlain = true)
    (plain : allValuesPlain entries = true) :
    allValuesPlain (Table.insertIn key value entries) = true := by
  induction entries with
  | nil => simp [Table.insertIn, allValuesPlain, plainValue]
  | cons entry rest inductionHypothesis =>
      simp only [allValuesPlain, Bool.and_eq_true] at plain
      simp only [Table.insertIn]
      split
      · simp [allValuesPlain, plainValue, plain.2]
      · simp [allValuesPlain, plain.1, inductionHypothesis plain.2]

/-- A dictionary of entries without streams holds none. -/
theorem isPlain_ofList
    {entries : List (Bytes × Object)}
    (plain : ∀ entry ∈ entries, entry.2.isPlain = true) :
    (dictionary (Table.ofList entries)).isPlain = true := by
  suffices keeps : ∀ table : Dictionary, (dictionary table).isPlain = true →
      (dictionary (entries.foldl (fun table entry => table.insert entry.1 entry.2) table)).isPlain
        = true from keeps Table.empty rfl
  induction entries with
  | nil => simp
  | cons entry rest inductionHypothesis =>
      intro table plainTable
      refine inductionHypothesis (fun other inRest => plain other (by simp [inRest])) _ ?_
      simp only [isPlain, Table.insert] at plainTable ⊢
      exact allValuesPlain_insertIn (plain entry (by simp)) plainTable

end Object

namespace Lexeme

variable {keyword rest : Bytes}

/-- A bracket or a blank ends a token. -/
theorem endsToken_cons {byte : UInt8} (notRegular : Bytes.isRegular byte = false) :
    endsToken (byte :: rest) = true := by
  simp [endsToken, notRegular]

/-- A value that is not set off by a blank starts with a delimiter. -/
theorem endsToken_print {object : Object} (plain : object.isPlain = true)
    (noGap : object.needsGap = false) : endsToken (object.print ++ rest) = true := by
  cases object with
  | null | boolean | integer | real | reference => simp [Object.needsGap] at noGap
  | stream => simp [Object.isPlain] at plain
  | name bytes => exact endsToken_cons (by decide)
  | string bytes written => cases written <;> exact endsToken_cons (by decide)
  | array items => exact endsToken_cons (by decide)
  | dictionary entries => exact endsToken_cons (by decide)

/-- A value, set off by a blank if it needs one, ends the token before it. -/
theorem endsToken_gap_print {object : Object} (plain : object.isPlain = true) (rest : Bytes) :
    endsToken ((if object.needsGap then [32] else []) ++ object.print ++ rest) = true := by
  split
  · exact endsToken_cons (by decide)
  · rename_i noGap
    simpa using endsToken_print plain (Bool.eq_false_iff.2 noGap)

/-- Written items of an array that are not the first end the token before them. -/
theorem endsToken_printItems {items : List Object} (plain : Object.allPlain items = true)
    (ends : endsToken rest = true) :
    endsToken (Object.printItems false items ++ rest) = true := by
  cases items with
  | nil => simpa [Object.printItems] using ends
  | cons item more =>
      simp only [Object.allPlain, Bool.and_eq_true] at plain
      simpa [Object.printItems] using
        endsToken_gap_print plain.1 (Object.printItems false more ++ rest)

/-- Written entries of a dictionary end the token before them. -/
theorem endsToken_printEntries {entries : List (Bytes × Object)} (ends : endsToken rest = true) :
    endsToken (Object.printEntries entries ++ rest) = true := by
  cases entries with
  | nil => simpa [Object.printEntries] using ends
  | cons entry more =>
      simp only [Object.printEntries, Object.printName, List.cons_append]
      exact endsToken_cons (by decide)

/-- A single bracket or blank is passed over. -/
theorem passesOver_byte {byte : UInt8}
    (isMark : byte = 32 ∨ byte = 10 ∨ byte = 91 ∨ byte = 93 ∨ byte = 62) :
    PassesOver keyword [byte] rest := by
  rcases isMark with rfl | rfl | rfl | rfl | rfl <;>
    exact passesOver_mark (by decide) (by decide)

/-- A gap before a value is passed over. -/
theorem passesOver_gap (needed : Bool) :
    PassesOver keyword (if needed then [32] else []) rest := by
  cases needed with
  | false => simp
  | true => exact passesOver_byte (by simp)

/-- A written reference is passed over. -/
theorem passesOver_printReference (containsLetter : (73 : UInt8) ∈ keyword) (target : ObjectId)
    (ends : endsToken rest = true) :
    PassesOver keyword (Object.printReference target) rest := by
  have letter : Bytes.IsValueWord [82] := ⟨by simp, by simp; decide⟩
  have split : Object.printReference target =
      Bytes.ofNat target.number ++ ([32] ++ (Bytes.ofNat target.generation ++ ([32] ++ [82]))) := by
    simp [Object.printReference]
  rw [split]
  refine (passesOver_valueWord containsLetter (Bytes.isValueWord_ofNat _)
    (endsToken_cons (by decide))).append ?_
  refine (passesOver_byte (by simp)).append ?_
  refine (passesOver_valueWord containsLetter (Bytes.isValueWord_ofNat _)
    (endsToken_cons (by decide))).append ?_
  exact (passesOver_byte (by simp)).append (passesOver_valueWord containsLetter letter ends)

mutual

/-- A written object without streams is passed over. -/
theorem passesOver_print (containsLetter : (73 : UInt8) ∈ keyword) (object : Object)
    (plain : object.isPlain = true) (rest : Bytes) (ends : endsToken rest = true) :
    PassesOver keyword object.print rest := by
  match object with
  | .null =>
      exact passesOver_valueWord containsLetter ⟨by decide, by decide +kernel⟩ ends
  | .boolean true =>
      exact passesOver_valueWord containsLetter ⟨by decide, by decide +kernel⟩ ends
  | .boolean false =>
      exact passesOver_valueWord containsLetter ⟨by decide, by decide +kernel⟩ ends
  | .integer value =>
      exact passesOver_valueWord containsLetter (Bytes.isValueWord_ofInt _) ends
  | .real value =>
      exact passesOver_valueWord containsLetter (Object.isValueWord_printReal value) ends
  | .name bytes => exact passesOver_printName bytes ends
  | .string bytes written => exact passesOver_printString bytes written
  | .reference target => exact passesOver_printReference containsLetter target ends
  | .stream _ _ => simp [Object.isPlain] at plain
  | .array items =>
      have split : (Object.array items).print =
          [91] ++ (Object.printItems true items ++ [93]) := by simp [Object.print]
      rw [split]
      refine (passesOver_byte (by simp)).append (PassesOver.append ?_ (passesOver_byte (by simp)))
      exact passesOver_printItems containsLetter true items (by simpa [Object.isPlain] using plain)
        _ (endsToken_cons (by decide))
  | .dictionary ⟨entries⟩ =>
      have split : (Object.dictionary ⟨entries⟩).print =
          [60, 60] ++ (Object.printEntries entries ++ ([62] ++ [62])) := by simp [Object.print]
      rw [split]
      refine passesOver_doubleBracket.append (PassesOver.append ?_
        ((passesOver_byte (by simp)).append (passesOver_byte (by simp))))
      exact passesOver_printEntries containsLetter entries (by simpa [Object.isPlain] using plain)
        _ (endsToken_cons (by decide))

/-- Written items of an array without streams are passed over. -/
theorem passesOver_printItems (containsLetter : (73 : UInt8) ∈ keyword) (first : Bool)
    (items : List Object) (plain : Object.allPlain items = true) (rest : Bytes)
    (ends : endsToken rest = true) :
    PassesOver keyword (Object.printItems first items) rest := by
  match items with
  | [] => simp [Object.printItems]
  | item :: more =>
      simp only [Object.allPlain, Bool.and_eq_true] at plain
      rw [Object.printItems]
      refine PassesOver.append (PassesOver.append (passesOver_gap _) ?_) ?_
      · exact passesOver_print containsLetter item plain.1 _ (endsToken_printItems plain.2 ends)
      · exact passesOver_printItems containsLetter false more plain.2 rest ends

/-- Written entries of a dictionary without streams are passed over. -/
theorem passesOver_printEntries (containsLetter : (73 : UInt8) ∈ keyword)
    (entries : List (Bytes × Object)) (plain : Object.allValuesPlain entries = true)
    (rest : Bytes) (ends : endsToken rest = true) :
    PassesOver keyword (Object.printEntries entries) rest := by
  match entries with
  | [] => simp [Object.printEntries]
  | (key, value) :: more =>
      simp only [Object.allValuesPlain, Bool.and_eq_true] at plain
      have split : Object.printEntries ((key, value) :: more) =
          Object.printName key ++ ((if value.needsGap then [32] else []) ++
            (value.print ++ Object.printEntries more)) := by simp [Object.printEntries]
      have afterValue : endsToken (Object.printEntries more ++ rest) = true :=
        endsToken_printEntries ends
      rw [split]
      refine PassesOver.append (passesOver_printName key ?_) ((passesOver_gap _).append
        (PassesOver.append ?_ ?_))
      · simpa using endsToken_gap_print plain.1 (Object.printEntries more ++ rest)
      · exact passesOver_print containsLetter value plain.1 _ afterValue
      · exact passesOver_printEntries containsLetter more plain.2 rest ends

end

end Lexeme

namespace Parser

/-- Every value that a parser reads has a property. -/
def Yields (property : α → Prop) (parser : Parser α) : Prop :=
  ∀ bytes value rest, parser bytes = some (value, rest) → property value

/-- A choice yields what both of its parsers yield. -/
theorem Yields.orElse {property : α → Prop} {first second : Parser α}
    (yieldsFirst : Yields property first) (yieldsSecond : Yields property second) :
    Yields property (orElse first second) := by
  intro bytes value rest parsed
  unfold Parser.orElse at parsed
  split at parsed
  · rename_i result atFirst
    rw [Option.some.inj parsed] at atFirst
    exact yieldsFirst _ _ _ atFirst
  · exact yieldsSecond _ _ _ parsed

/-- A changed value has a property that every changed value has. -/
theorem yields_map {property : β → Prop} {change : α → β} (holds : ∀ value, property (change value))
    (parser : Parser α) : Yields property (map change parser) := by
  intro bytes value rest parsed
  obtain ⟨found, _, same⟩ := Option.map_eq_some_iff.1 parsed
  rw [← (Prod.mk.inj same).1]
  exact holds found.1

/-- A replaced value is the one that replaces it. -/
theorem yields_as {property : β → Prop} {value : β} (holds : property value) (parser : Parser α) :
    Yields property (as value parser) := by
  intro bytes found rest parsed
  obtain ⟨_, _, same⟩ := Option.map_eq_some_iff.1 parsed
  rw [← (Prod.mk.inj same).1]
  exact holds

/-- Values that follow each other are values that the parser reads. -/
theorem yields_many {property : α → Prop} {parser : Parser α} (yields : Yields property parser)
    (gap : Bytes → Bytes) (count : Nat) (bytes : Bytes) :
    ∀ value ∈ (many gap parser count bytes).1, property value := by
  induction count generalizing bytes with
  | zero => simp [many]
  | succ count inductionHypothesis =>
      simp only [many]
      split
      · simp
      · rename_i first rest parsed
        intro value inValues
        rcases List.mem_cons.1 inValues with rfl | later
        · exact yields _ _ _ parsed
        · exact inductionHypothesis _ value later

/-- An array of values without streams holds none. -/
theorem yields_array {item : Parser Object} (yields : Yields (·.isPlain = true) item)
    (limit : Nat) : Yields (·.isPlain = true) (array limit item) := by
  intro bytes value rest parsed
  simp only [array, Option.bind_eq_bind, Option.bind_eq_some_iff] at parsed
  obtain ⟨_, _, _, _, same⟩ := parsed
  rw [← (Prod.mk.inj (Option.some.inj same)).1]
  simpa [Object.isPlain, Object.allPlain_iff] using yields_many yields skip limit _

/-- The value of an entry is one that the parser of values reads. -/
theorem yields_entry {property : Object → Prop} {item : Parser Object}
    (yields : Yields property item) : Yields (property ·.2) (entry item) := by
  intro bytes value rest parsed
  simp only [entry, Option.bind_eq_bind, Option.bind_eq_some_iff] at parsed
  obtain ⟨_, _, ⟨found, after⟩, atValue, same⟩ := parsed
  rw [← (Prod.mk.inj (Option.some.inj same)).1]
  exact yields _ _ _ atValue

/-- A dictionary of values without streams holds none. -/
theorem yields_dictionary {item : Parser Object} (yields : Yields (·.isPlain = true) item)
    (limit : Nat) : Yields (·.isPlain = true) (dictionary limit item) := by
  intro bytes value rest parsed
  simp only [dictionary, Option.bind_eq_bind, Option.bind_eq_some_iff] at parsed
  obtain ⟨_, _, _, _, same⟩ := parsed
  rw [← (Prod.mk.inj (Option.some.inj same)).1]
  exact Object.isPlain_ofList (yields_many (yields_entry yields) skip limit _)

/-- A constant holds no stream. -/
theorem yields_constant : Yields (·.isPlain = true) constant :=
  Yields.orElse (yields_as (by rfl) _) (Yields.orElse (yields_as (by rfl) _) (yields_as (by rfl) _))

/-- A number holds no stream. -/
theorem yields_number : Yields (·.isPlain = true) number :=
  Yields.orElse (yields_map (fun _ => by rfl) _) (yields_map (fun _ => by rfl) _)

/-- A name or a string holds no stream. -/
theorem yields_text : Yields (·.isPlain = true) text :=
  Yields.orElse (yields_map (fun _ => by rfl) _)
    (Yields.orElse (yields_map (fun _ => by rfl) _) (yields_map (fun _ => by rfl) _))

/-- An object that is read inside another holds no stream. -/
theorem yields_nested (length : Nat) : Yields (·.isPlain = true) (nested length) := by
  induction length with
  | zero =>
      intro bytes value rest parsed
      simp [nested] at parsed
  | succ length inductionHypothesis =>
      refine yields_constant.orElse (Yields.orElse (yields_map (fun _ => by rfl) _) ?_)
      refine yields_number.orElse (yields_text.orElse ?_)
      exact (yields_array inductionHypothesis _).orElse (yields_dictionary inductionHypothesis _)

/-- An operand holds no stream. -/
theorem yields_operand (length : Nat) : Yields (·.isPlain = true) (operand length) :=
  yields_constant.orElse (yields_number.orElse (yields_text.orElse
    ((yields_array (yields_nested length) _).orElse (yields_dictionary (yields_nested length) _))))

end Parser

namespace Operation

/-- A keyword of letters after operands without streams. -/
structure IsPlain (operation : Operation) : Prop where
  operands : ∀ operand ∈ operation.operands, operand.isPlain = true
  keyword : ∃ letters : Bytes, letters ≠ [] ∧
    (∀ letter ∈ letters, Parser.isOperatorByte letter = true) ∧
      operation.keyword = Text.ofBytes letters

end Operation

namespace Parser

/-- An operation that is read is plain. -/
theorem yields_operation (length : Nat) : Yields Operation.IsPlain (operation length) := by
  intro bytes value rest parsed
  simp only [operation] at parsed
  split at parsed
  · simp at parsed
  · rename_i nonempty
    simp only [Option.some.injEq, Prod.mk.injEq] at parsed
    rw [← parsed.1]
    constructor
    · exact yields_many (yields_operand length) skipOperandGap length bytes
    · refine ⟨_, by simpa using nonempty, ?_, rfl⟩
      intro letter inWord
      rw [List.span_eq_takeWhile_dropWhile] at inWord
      exact List.mem_takeWhile_imp inWord

/-- What is read as an inline image has its keyword. -/
theorem yields_inlineImage (length : Nat) :
    Yields (·.keyword = "BI") (inlineImage length) := by
  intro bytes value rest parsed
  simp only [inlineImage, Option.bind_eq_bind, Option.bind_eq_some_iff] at parsed
  obtain ⟨_, _, dataLength, _, parsed⟩ := parsed
  split at parsed
  · simp at parsed
  · simp only [Option.bind_eq_some_iff] at parsed
    obtain ⟨_, _, same⟩ := parsed
    rw [← (Prod.mk.inj (Option.some.inj same)).1]

/-- Operations that are read are inline images or plain. -/
theorem isPlain_of_mem_operations {length : Nat} {bytes : Bytes} {list : List Operation}
    (parsed : operations length bytes = some list) :
    ∀ operation ∈ list, operation.keyword = "BI" ∨ operation.IsPlain := by
  induction length generalizing bytes list with
  | zero =>
      simp only [operations, Option.some.injEq] at parsed
      simp [← parsed]
  | succ length inductionHypothesis =>
      simp only [operations] at parsed
      split at parsed
      · simp only [Option.bind_eq_bind, Option.bind_eq_some_iff] at parsed
        obtain ⟨⟨image, rest⟩, atImage, others, later, same⟩ := parsed
        simp only [Option.pure_def, Option.some.injEq] at same
        intro operation inList
        rw [← same] at inList
        rcases List.mem_cons.1 inList with rfl | inOthers
        · exact Or.inl (yields_inlineImage _ _ _ _ atImage)
        · exact inductionHypothesis later operation inOthers
      · split at parsed
        · simp only [Option.some.injEq] at parsed
          simp [← parsed]
        · rename_i first rest atFirst
          obtain ⟨others, later, same⟩ := Option.map_eq_some_iff.1 parsed
          intro operation inList
          rw [← same] at inList
          rcases List.mem_cons.1 inList with rfl | inOthers
          · exact Or.inr (yields_operation _ _ _ _ atFirst)
          · exact inductionHypothesis later operation inOthers

end Parser

namespace Operation

/-- Operations that are read are inline images or plain. -/
theorem isPlain_of_mem_readAll {content : Bytes} {list : List Operation}
    (parsed : readAll content = some list) :
    ∀ operation ∈ list, operation.keyword = "BI" ∨ operation.IsPlain :=
  Parser.isPlain_of_mem_operations parsed

/-- A letter of a keyword is a regular byte below 128. -/
theorem isRegular_of_isOperatorByte :
    ∀ byte : UInt8, Parser.isOperatorByte byte = true →
      Bytes.isRegular byte = true ∧ byte.toNat < 128 :=
  Bytes.forall_of_fin (by decide +kernel)

/-- A character below 128 is encoded as one byte. -/
theorem utf8EncodeChar_of_lt :
    ∀ byte : UInt8, byte.toNat < 128 →
      String.utf8EncodeChar (Char.ofNat byte.toNat) = [byte] :=
  Bytes.forall_of_fin (by decide +kernel)

/-- The bytes below 128 are read as characters and written as they were. -/
theorem toBytes_ofBytes {letters : Bytes} (ascii : ∀ letter ∈ letters, letter.toNat < 128) :
    Text.toBytes (Text.ofBytes letters) = letters := by
  unfold Text.toBytes Text.ofBytes
  rw [String.toList_ofList]
  induction letters with
  | nil => simp [Text.decode]
  | cons letter more inductionHypothesis =>
      have later := inductionHypothesis fun other inMore => ascii other (by simp [inMore])
      have bound := ascii letter (by simp)
      have small : letter < 0x80 := by
        simpa [UInt8.lt_iff_toNat_lt] using bound
      have encoded := utf8EncodeChar_of_lt letter bound
      rw [Text.decode.eq_def]
      simp [small, encoded, later]

/-- The operands of an operation as they are written. -/
def printOperands (operands : List Object) : Bytes :=
  operands.flatMap fun operand => operand.print ++ [32]

/-- Operands without streams are passed over. -/
theorem passesOver_printOperands {keyword rest : Bytes} (containsLetter : (73 : UInt8) ∈ keyword)
    {operands : List Object} (plain : ∀ operand ∈ operands, operand.isPlain = true) :
    Lexeme.PassesOver keyword (printOperands operands) rest := by
  induction operands with
  | nil => simp [printOperands]
  | cons operand more inductionHypothesis =>
      have split : printOperands (operand :: more) =
          (operand.print ++ [32]) ++ printOperands more := by simp [printOperands]
      rw [split]
      refine Lexeme.PassesOver.append (Lexeme.PassesOver.append ?_
        (Lexeme.passesOver_byte (by simp))) (inductionHypothesis fun other inMore =>
          plain other (by simp [inMore]))
      exact Lexeme.passesOver_print containsLetter operand (plain operand (by simp)) _
        (Lexeme.endsToken_cons (by decide))

/-- A plain operation that is no inline image is passed over in a search for one, with the end
of its line. -/
theorem passesOver_line {operation : Operation} {rest : Bytes} (plain : operation.IsPlain)
    (ordinary : operation.keyword ≠ "BI") :
    Lexeme.PassesOver (Bytes.ascii "BI") (operation.print ++ [10]) rest := by
  obtain ⟨letters, nonempty, isLetter, spelled⟩ := plain.keyword
  have written : Text.toBytes operation.keyword = letters := by
    rw [spelled]
    exact toBytes_ofBytes fun letter inWord =>
      (isRegular_of_isOperatorByte letter (isLetter letter inWord)).2
  have other : letters ≠ Bytes.ascii "BI" := by
    rintro rfl
    exact ordinary (spelled.trans (by decide))
  have split : operation.print ++ [10] =
      printOperands operation.operands ++ (letters ++ [10]) := by
    simp [print, printOperands, written]
  rw [split]
  refine (passesOver_printOperands (by decide) plain.operands).append
    (Lexeme.PassesOver.append ?_ (Lexeme.passesOver_byte (by simp)))
  exact Lexeme.passesOver_word nonempty (fun letter inWord =>
    (isRegular_of_isOperatorByte letter (isLetter letter inWord)).1) other
      (Lexeme.endsToken_cons (by decide))

end Operation
end Monochrome
