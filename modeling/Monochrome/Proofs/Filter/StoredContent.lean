import Monochrome.ContentStream
import Monochrome.Proofs.Filter.Deflate.RoundTrip
import Monochrome.Proofs.Image.ReadingBack

/-!
# Stored content is read back

Storing content takes the filters and parameters under their full keys out of a dictionary, and
leaves those under abbreviated keys, which the reader honours as soon as the full ones are gone.
So plain content is read back if and only if the abbreviated keys name no filter, and compressed
content if and only if they give Flate no parameters that change what it decodes.
-/

namespace Monochrome

open Outcome

variable {document : Document}

/-! ## Predictors that change nothing -/

namespace Predictor

/-- The first pixel of a row has nothing to its left, and stays. -/
theorem undoRow_append (first seen rest : Bytes) :
    undoRow 1 (List.replicate first.length 0 ++ seen) [] [] (first ++ rest) =
      first ++ undoRow 1 (seen ++ first) [] [] rest := by
  induction first generalizing seen with
  | nil => simp
  | cons byte first inductionHypothesis =>
      have later := inductionHypothesis (seen ++ [byte])
      rw [List.append_assoc, List.singleton_append] at later
      rw [List.length_cons, List.replicate_succ, List.cons_append, List.cons_append, undoRow]
      simp only [List.headD_cons, List.headD_nil, List.tail_cons, List.tail_nil, predict,
        if_pos, UInt8.add_zero, List.append_assoc, List.cons_append]
      rw [later]

/-- A row of one pixel stays as it is. -/
theorem undoRow_short {pixelBytes : Nat} {row : Bytes} (short : row.length ≤ pixelBytes) :
    undoRow 1 (List.replicate pixelBytes 0) [] [] row = row := by
  have split : List.replicate pixelBytes (0 : UInt8) =
      List.replicate row.length 0 ++ List.replicate (pixelBytes - row.length) 0 := by
    rw [List.replicate_append_replicate, Nat.add_sub_cancel' short]
  have kept := undoRow_append row (List.replicate (pixelBytes - row.length) 0) []
  rw [List.append_nil] at kept
  rw [split, kept, undoRow, List.append_nil]

/-- Differences between the pixels of rows of one pixel change nothing. -/
theorem undoDifferences_short {rowBytes pixelBytes : Nat} (short : max rowBytes 1 ≤ pixelBytes)
    (data : Bytes) : undoDifferences rowBytes pixelBytes data = data := by
  rw [undoDifferences, List.flatMap_def]
  have kept : ∀ row ∈ Bytes.chunks (max rowBytes 1) data,
      undoRow 1 (List.replicate pixelBytes 0) [] [] row = id row := fun row isRow =>
    undoRow_short ((Bytes.length_le_of_mem_chunks (by omega) isRow).trans short)
  rw [List.map_congr_left kept, List.map_id, Bytes.flatten_chunks]

/-- Differences between the pixels of longer rows change some data. -/
theorem exists_undoDifferences_ne {rowBytes pixelBytes : Nat} (long : pixelBytes < rowBytes)
    (nonzero : 0 < pixelBytes) : ∃ data, undoDifferences rowBytes pixelBytes data ≠ data := by
  refine ⟨List.replicate pixelBytes 1 ++ [1], ?_⟩
  obtain ⟨before, rfl⟩ := Nat.exists_eq_add_one.mpr nonzero
  have oneRow : Bytes.chunks (max rowBytes 1) (List.replicate (before + 1) 1 ++ [1]) =
      [List.replicate (before + 1) 1 ++ [1]] := by
    have inside : (List.replicate before (1 : UInt8) ++ [1]).length ≤ max rowBytes 1 - 1 := by
      rw [List.length_append, List.length_replicate, List.length_singleton]
      omega
    rw [List.replicate_succ, List.cons_append, Bytes.chunks, List.take_of_length_le inside,
      List.drop_of_length_le inside, Bytes.chunks]
  have undone := undoRow_append (List.replicate (before + 1) 1) [] [1]
  rw [List.length_replicate, List.append_nil, List.nil_append] at undone
  rw [undoDifferences, oneRow, List.flatMap_singleton, undone]
  intro same
  have last := List.append_cancel_left same
  rw [List.replicate_succ] at last
  cases List.head_eq_of_cons_eq last

end Predictor

namespace Filter

/-! ## Parameters that leave the data as it is -/

namespace Parameters

/-- The number of columns that parameters give is at least one, and so is that of colors. -/
theorem positive_of_ofDictionary {dictionary : Dictionary} {parameters : Parameters}
    (isRead : ofDictionary document dictionary = .ok parameters) :
    0 < parameters.colors ∧ 0 < parameters.columns := by
  obtain ⟨_, -, rest⟩ := bind_eq_ok.mp isRead
  obtain ⟨colors, -, rest⟩ := bind_eq_ok.mp rest
  obtain ⟨_, -, rest⟩ := bind_eq_ok.mp rest
  obtain ⟨columns, -, rest⟩ := bind_eq_ok.mp rest
  obtain ⟨_, -, rest⟩ := bind_eq_ok.mp rest
  cases pure_eq_ok.mp rest
  constructor
  · cases colors with
    | none => exact Nat.one_pos
    | some => show 0 < (max (_ : Int) 1).toNat; omega
  · cases columns with
    | none => exact Nat.one_pos
    | some => show 0 < (max (_ : Int) 1).toNat; omega

/-- The same holds of the parameters that a filter of a chain has without a dictionary. -/
theorem positive_of_parametersOf {dictionary : Option Dictionary} {parameters : Parameters}
    (isRead : parametersOf document dictionary = .ok parameters) :
    0 < parameters.colors ∧ 0 < parameters.columns := by
  cases dictionary with
  | none =>
      cases isRead
      exact ⟨Nat.one_pos, Nat.one_pos⟩
  | some dictionary => exact positive_of_ofDictionary isRead

/-- Whether undoing the predictor that the parameters name leaves all data as it is: there is none,
or one that takes differences in rows of one pixel. -/
def LeaveData (parameters : Parameters) : Prop :=
  parameters.hasPredictor = true →
    parameters.predictor = 2 ∧ parameters.bits = 8 ∧ parameters.columns = 1

end Parameters

variable {parameters : Parameters}

/-- Parameters leave all data as it is if and only if they say so. -/
theorem finishDecoding_eq_self_iff (fault : ImageFault) (someColors : 0 < parameters.colors)
    (someColumns : 0 < parameters.columns) :
    (∀ data, finishDecoding parameters fault (some data) = .ok data) ↔ parameters.LeaveData := by
  unfold finishDecoding Parameters.LeaveData
  by_cases hasPredictor : parameters.hasPredictor = true
  swap
  · simp [hasPredictor]
  simp only [hasPredictor, if_true, forall_const]
  unfold undoPredictor
  have pixelBytes (bits8 : parameters.bits = 8) :
      max ((parameters.colors * parameters.bits + 7) / 8) 1 = parameters.colors := by
    rw [bits8]
    omega
  have rowBytes (bits8 : parameters.bits = 8) :
      (parameters.columns * (parameters.colors * parameters.bits) + 7) / 8 =
        parameters.columns * parameters.colors := by
    rw [bits8, ← Nat.mul_assoc]
    omega
  dsimp only
  split
  next differences =>
    split
    next bits8 =>
      rw [rowBytes bits8, pixelBytes bits8]
      simp only [differences, bits8, true_and, Except.ok.injEq]
      constructor
      · intro same
        by_contra several
        have long : parameters.colors < parameters.columns * parameters.colors := by
          have two : 2 ≤ parameters.columns := by omega
          calc parameters.colors < 2 * parameters.colors := by omega
            _ ≤ parameters.columns * parameters.colors := Nat.mul_le_mul_right _ two
        obtain ⟨data, changed⟩ := Predictor.exists_undoDifferences_ne long someColors
        exact changed (same data)
      · intro one data
        exact Predictor.undoDifferences_short (by rw [one]; omega) data
    next otherBits => exact iff_of_false (fun same => nomatch same []) (fun named => otherBits named.2.1)
  next noDifferences =>
    refine iff_of_false (fun same => ?_) (fun named => noDifferences named.1)
    split at same
    · -- a row that consists of its type only holds no data
      have lost := same [0]
      rw [Predictor.undo, Bytes.chunks, List.take_nil, List.drop_nil, Bytes.chunks] at lost
      cases lost
    · cases same []

/-! ## Filters lose data that they did not write -/

/-- Neither nothing nor a blank is what a filter writes for some data: it fails, or nothing is
left. -/
theorem decode_eq_nil {filter : Filter} {data decoded : Bytes} (isBlank : data = [] ∨ data = [32])
    (isDecoded : filter.decode parameters data = .ok decoded) : decoded = [] := by
  have finished {found : Option Bytes} {fault : ImageFault} (empty : ∀ text ∈ found, text = [])
      (isDecoded : finishDecoding parameters fault found = .ok decoded) : decoded = [] := by
    cases found with
    | none => cases isDecoded
    | some text =>
        cases empty text rfl
        rw [finishDecoding, undoPredictor, Predictor.undoDifferences, Predictor.undo,
          Bytes.chunks, Bytes.chunks] at isDecoded
        split at isDecoded
        · split at isDecoded
          · split at isDecoded <;> cases isDecoded
            rfl
          · split at isDecoded <;> cases isDecoded
            rfl
        · cases isDecoded
          rfl
  cases filter with
  | flate =>
      refine finished ?_ isDecoded
      rcases isBlank with rfl | rfl <;> rintro _ ⟨⟩
  | lzw =>
      refine finished ?_ isDecoded
      rcases isBlank with rfl | rfl <;> rintro _ ⟨⟩
  | runLength =>
      cases isDecoded
      rcases isBlank with rfl | rfl
      · rw [RunLength.decode]
      · simp [RunLength.decode]
  | asciiHex =>
      cases isDecoded
      rcases isBlank with rfl | rfl <;> decide
  | ascii85 =>
      cases isDecoded
      rcases isBlank with rfl | rfl <;> decide
  | dct => cases isDecoded
  | jpx => cases isDecoded
  | ccittFax => cases isDecoded
  | jbig2 => cases isDecoded

/-- No chain of filters that starts from nothing or a blank makes a blank of it, but the one
without filters. -/
theorem decodeChain_eq_nil {chain : List (Filter × Option Dictionary)} {data decoded : Bytes}
    (isBlank : data = [] ∨ data = [32]) (some : chain ≠ [])
    (isDecoded : decodeChain document chain data = .ok ⟨decoded, none⟩) : decoded = [] := by
  induction chain generalizing data with
  | nil => exact absurd rfl some
  | cons first rest inductionHypothesis =>
      obtain ⟨filter, dictionary⟩ := first
      unfold decodeChain at isDecoded
      split at isDecoded
      · split at isDecoded <;> cases isDecoded
      · obtain ⟨_, -, isDecoded⟩ := bind_eq_ok.mp isDecoded
        obtain ⟨inner, isInner, isDecoded⟩ := bind_eq_ok.mp isDecoded
        have nothing := decode_eq_nil isBlank isInner
        cases rest with
        | nil =>
            cases isDecoded
            exact nothing
        | cons second others =>
            exact inductionHypothesis (.inl nothing) (List.cons_ne_nil _ _) isDecoded

end Filter

namespace Stream

variable {stream : Stream}

/-! ## What the reader finds -/

/-- The entries with which a stream stores other content. -/
def keptEntries (stream : Stream) : Dictionary :=
  (stream.entries.remove "DecodeParms").remove "Filter"

/-- The length that a stream tells is under a key of its own. -/
theorem get?_ofData {entries : Dictionary} {data : Bytes} {key : String}
    (isOther : Bytes.ascii "Length" ≠ Bytes.ascii key) :
    (ofData entries data).entries.get? key = entries.get? key :=
  (Table.find?_insert _ _ _ _).trans (if_neg isOther)

/-- Plain content is read with the filters that the kept entries name. -/
theorem content_setContent_plain (document : Document) (stream : Stream) (content : Bytes) :
    (stream.setContent content false).content document = (do
      let chain ← Filter.chain document stream.keptEntries
      let decoded ← Filter.decodeChain document chain content
      match decoded.codec with
      | none => return decoded.data
      | some codec => throw (.codec (.filter codec.name))) := by
  have sameChain : Filter.chain document (ofData stream.keptEntries content).entries =
      Filter.chain document stream.keptEntries := by
    simp only [Filter.chain, Filter.names, Filter.parameterDictionaries, Document.eitherEntry?,
      Document.entry?]
    rw [get?_ofData (by decide), get?_ofData (by decide), get?_ofData (by decide),
      get?_ofData (by decide)]
  rw [← sameChain, ← bind_assoc]
  rfl

/-- Compressed content is read with Flate, and with the parameters that the kept entries name. -/
theorem content_setContent_compressed (document : Document) (stream : Stream) (content : Bytes) :
    (stream.setContent content true).content document = (do
      let dictionaries ← Filter.parameterDictionaries document stream.keptEntries 1
      let parameters ← Filter.parametersOf document (dictionaries[0]?).join
      Filter.finishDecoding parameters .inflate (some content)) := by
  let stored := stream.setContent content true
  have isNamed : Filter.names document stored.entries = .ok ["FlateDecode"] := by
    have isFilter : stored.entries.get? "Filter" = some (.named Filter.flate.name) :=
      (get?_ofData (by decide)).trans ((Table.find?_insert _ _ _ _).trans (if_pos rfl))
    rw [Filter.names, Document.eitherEntry?, Document.entry?, isFilter]
    exact congrArg (fun name => Except.ok [name]) (Filter.ofBytes_name .flate)
  have sameParameters : Filter.parameterDictionaries document stored.entries 1 =
      Filter.parameterDictionaries document stream.keptEntries 1 := by
    have kept {key : String} (noLength : Bytes.ascii "Length" ≠ Bytes.ascii key)
        (noFilter : Bytes.ascii "Filter" ≠ Bytes.ascii key) :
        stored.entries.get? key = stream.keptEntries.get? key :=
      (get?_ofData noLength).trans ((Table.find?_insert _ _ _ _).trans (if_neg noFilter))
    simp only [Filter.parameterDictionaries, Document.eitherEntry?, Document.entry?]
    rw [kept (by decide) (by decide), kept (by decide) (by decide)]
  have isChain : Filter.chain document stored.entries =
      (do
        let dictionaries ← Filter.parameterDictionaries document stream.keptEntries 1
        return [(Filter.flate, (dictionaries[0]?).join)]) := by
    rw [Filter.chain, isNamed]
    show (Filter.parameterDictionaries document stored.entries 1 >>= _) = _
    rw [sameParameters]
    rfl
  show Stream.content document stored = _
  rw [Stream.content, Stream.decode, isChain]
  cases Filter.parameterDictionaries document stream.keptEntries 1 with
  | error => rfl
  | ok dictionaries =>
      show ((Filter.decodeChain document [(Filter.flate, (dictionaries[0]?).join)]
        (Deflate.encode content)) >>= _) = (Filter.parametersOf document _ >>= _)
      rw [Filter.decodeChain.eq_def]
      dsimp only
      rw [if_neg (by decide)]
      cases Filter.parametersOf document (dictionaries[0]?).join with
      | error => rfl
      | ok parameters =>
          show ((Filter.finishDecoding parameters .inflate
            (Deflate.decode (Deflate.encode content)) >>= _) >>= _) =
              Filter.finishDecoding parameters .inflate (some content)
          rw [Deflate.decode_encode]
          cases Filter.finishDecoding parameters .inflate (some content) <;> rfl

/-! ## When stored content is read back -/

/-- Whether the entries that a stream keeps let stored content alone.  Plain content needs that they
name no filter.  Compressed content is read with Flate whatever they name, but with their
parameters, which must not change it. -/
def LetsContentAlone (document : Document) (stream : Stream) : Bool → Prop
  | false => Filter.chain document stream.keptEntries = .ok []
  | true => ∃ dictionaries parameters,
      Filter.parameterDictionaries document stream.keptEntries 1 = .ok dictionaries ∧
        Filter.parametersOf document (dictionaries[0]?).join = .ok parameters ∧
          parameters.LeaveData

/-- A stream without abbreviated keys lets all content alone. -/
theorem letsContentAlone_of_noShortKeys (document : Document)
    (distinct : stream.entries.HasDistinctKeys) (noFilter : stream.entries.get? "F" = none)
    (noParameters : stream.entries.get? "DP" = none) (compress : Bool) :
    stream.LetsContentAlone document compress := by
  have kept := (Dictionary.foldl_remove_spec ["DecodeParms", "Filter"] distinct).2
  have noName : document.eitherEntry? stream.keptEntries "Filter" "F" = .ok none :=
    ImageEncoder.eitherEntry?_of_get? ((kept "Filter").trans (if_pos (by decide))) (by rintro _ ⟨⟩)
      fun _ => (kept "F").trans ((if_neg (by decide)).trans noFilter)
  have noDictionary : document.eitherEntry? stream.keptEntries "DecodeParms" "DP" = .ok none :=
    ImageEncoder.eitherEntry?_of_get? ((kept "DecodeParms").trans (if_pos (by decide)))
      (by rintro _ ⟨⟩)
      fun _ => (kept "DP").trans ((if_neg (by decide)).trans noParameters)
  have dictionaries (count : Nat) : Filter.parameterDictionaries document stream.keptEntries count =
      .ok (List.replicate count none) := by
    rw [Filter.parameterDictionaries, noDictionary]
    rfl
  cases compress with
  | false =>
      show Filter.chain document stream.keptEntries = .ok []
      have noNames : Filter.names document stream.keptEntries = .ok [] := by
        rw [Filter.names, noName]
        rfl
      rw [Filter.chain, noNames]
      simp only [bind, Except.bind]
      rw [dictionaries]
      rfl
  | true =>
      have plain : Filter.Parameters.hasPredictor {} = false := rfl
      exact ⟨[none], {}, dictionaries 1, rfl, by simp [Filter.Parameters.LeaveData, plain]⟩

end Stream

namespace ContentStream

variable {source : ContentStream}

/-- Hexadecimal digits that an abbreviated key names are read where plain content was stored. -/
example : ¬Stream.LetsContentAlone default ⟨Dictionary.ofEntries [("F", .named "AHx")], []⟩ false := by
  have isName : Text.ofBytes (Bytes.ascii "AHx") = "AHx" := Text.ofBytes_ascii (by decide)
  show Filter.chain default (Dictionary.ofEntries [("F", .named "AHx")]) ≠ _
  rw [Filter.chain]
  show ((Except.ok [Text.ofBytes (Bytes.ascii "AHx")] : Outcome _) >>= _) ≠ _
  rw [isName]
  nofun

end ContentStream
end Monochrome
