import Monochrome.Proofs.ColorSpace.Storing

/-!
# Functions survive being stored

Storing a function adds one stream for each function in it that has samples or a program, and leaves
the document as it is otherwise.  A function that was read from any document is read from what is stored
for it, and so are the programs to gray.  A function through given samples is too, if single precision
holds the number of its points: the size of a table is written as an integer, but read as a real number.
-/

namespace Monochrome

open Outcome

namespace Document

/-- The document with streams added one after the other. -/
def addStreams (document : Document) (streams : List Stream) : Document :=
  streams.foldl (fun document stream => (add stream.toObject document).2) document

/-- Whether a document has the given streams under the numbers that follow the highest one of another
document, where that has nothing, and whatever else that has. -/
structure GainsStreams (document : Document) (streams : List Stream) (later : Document) : Prop where
  highest : later.highest = document.highest + streams.length
  trailer : later.trailer = document.trailer
  fresh index : index < streams.length → document.find? ⟨document.highest + index + 1, 0⟩ = none
  added index : (within : index < streams.length) →
    later.find? ⟨document.highest + index + 1, 0⟩ = some streams[index].toObject
  kept target : (∀ index < streams.length, target ≠ ⟨document.highest + index + 1, 0⟩) →
    later.find? target = document.find? target

variable {document : Document}

/-- Streams that are added are gained. -/
theorem gainsStreams_addStreams (isNumbered : document.IsNumbered) (streams : List Stream) :
    document.GainsStreams streams (document.addStreams streams) := by
  have fresh (index : Nat) : document.find? ⟨document.highest + index + 1, 0⟩ = none := by
    cases found : document.find? ⟨document.highest + index + 1, 0⟩ with
    | none => rfl
    | some object =>
        have bounded : document.highest + index + 1 ≤ document.highest := isNumbered _ _ found
        omega
  induction streams generalizing document with
  | nil =>
      exact ⟨rfl, rfl, fun index _ => fresh index, fun _ within => absurd within (Nat.not_lt_zero _),
        fun _ _ => rfl⟩
  | cons stream rest inductionHypothesis =>
      have isNumberedThen := (gains_add isNumbered stream).isNumbered
      have freshThen (index : Nat) : (add stream.toObject document).2.find?
          ⟨document.highest + 1 + index + 1, 0⟩ = none := by
        rw [find?_add, if_neg, Nat.add_assoc _ 1, Nat.add_comm 1]
        · exact fresh (index + 1)
        · intro same
          have sameNumber : document.highest + 1 = document.highest + 1 + index + 1 :=
            congrArg ObjectId.number same
          omega
      obtain ⟨highest, trailer, -, added, kept⟩ := inductionHypothesis isNumberedThen freshThen
      have next : (add stream.toObject document).2.highest = document.highest + 1 := rfl
      rw [next] at highest added kept
      refine ⟨?_, trailer, fun index _ => fresh index, fun index within => ?_, fun target others => ?_⟩
      · rw [List.length_cons]
        exact highest.trans (by omega)
      · cases index with
        | zero =>
            -- The first stream keeps its number, since the others get greater ones.
            refine (kept ⟨document.highest + 1, 0⟩ fun index _ same => ?_).trans
              ((find?_add _ _ _).trans (if_pos rfl))
            have sameNumber : document.highest + 1 = document.highest + 1 + index + 1 :=
              congrArg ObjectId.number same
            omega
        | succ index =>
            have isLater := added index (Nat.lt_of_succ_lt_succ within)
            rwa [show document.highest + 1 + index + 1 = document.highest + (index + 1) + 1 by omega]
              at isLater
      · refine (kept target fun index within => ?_).trans ((find?_add _ _ _).trans (if_neg ?_))
        · rw [show document.highest + 1 + index + 1 = document.highest + (index + 1) + 1 by omega]
          exact others (index + 1) (Nat.succ_lt_succ within)
        · exact (others 0 (Nat.succ_pos _)).symm

end Document

namespace NumericFunction

variable {document : Document}

/-! ## The streams of a function -/

mutual

/-- The streams that a function is stored with: one for each function in it that has samples or a
program. -/
def streams : NumericFunction Float32 Float → List Stream
  | sampled bounds table => [Stream.ofData (entriesOf bounds 0 (tableEntries table)) table.samples]
  | exponential _ _ _ _ => []
  | stitched _ parts _ _ => streamsOf parts
  | calculator bounds program => [Stream.ofData (entriesOf bounds 4 []) (Calculator.print program)]

/-- The streams that functions are stored with. -/
def streamsOf : List (NumericFunction Float32 Float) → List Stream
  | [] => []
  | function :: rest => function.streams ++ streamsOf rest

end

mutual

/-- Storing a function adds its streams, and does nothing else. -/
theorem snd_toObject : ∀ (function : NumericFunction Float32 Float) (document : Document),
    (function.toObject document).2 = document.addStreams function.streams
  | sampled _ _, document => by
      rw [toObject, streams]
      rfl
  | exponential _ _ _ _, document => by
      rw [toObject, streams]
      rfl
  | stitched _ parts _ _, document => by
      rw [toObject, streams]
      exact snd_toObjects parts document
  | calculator _ _, document => by
      rw [toObject, streams]
      rfl

/-- Storing functions adds their streams, and does nothing else. -/
theorem snd_toObjects : ∀ (functions : List (NumericFunction Float32 Float)) (document : Document),
    (toObjects functions document).2 = document.addStreams (streamsOf functions)
  | [], document => by
      rw [toObjects, streamsOf]
      rfl
  | function :: rest, document => by
      rw [toObjects, streamsOf, Document.addStreams, List.foldl_append]
      show (toObjects rest (function.toObject document).2).2 = _
      rw [snd_toObjects rest, snd_toObject function]
      rfl

end

/-! ## Reading functions back -/

/-- Whether a function is read from what is stored for it in a document. -/
def Survives (function : NumericFunction Float32 Float) (document : Document) : Prop :=
  read (function.toObject document).2 (function.toObject document).1 = .ok function

/-- A function that is told by what is stored for it survives. -/
theorem IsTold.survives {function : NumericFunction Float32 Float} (isTold : function.IsTold)
    (isNumbered : document.IsNumbered) : function.Survives document :=
  (gains_toObject function isTold document isNumbered).2

/-- A size is read from the integer that tells it if and only if single precision holds it. -/
theorem isSize_iff_holds {size : Nat} (nonzero : size ≠ 0) (short : size < 2 ^ 63) :
    IsSize size ↔ Format.single.Holds size := by
  rw [IsSize, Int64.toInt_ofNat_of_lt short]
  constructor
  · intro isSize
    have bounded := isSize.trans_lt short
    rw [← isSize]
    exact Float32Scalar.holds_toNat bounded
  · intro holds
    show Scalar.toNat (Scalar.downTo 1.0 (Scalar.ofNat size : Float32)) = size
    rw [Scalar.downTo, if_pos (Float32Scalar.atMost_one_ofNat holds nonzero),
      Float32Scalar.toNat_ofNat holds (by omega)]

/-- A function through samples survives if and only if its sizes are read from the integers that tell
them. -/
theorem survives_sampled_iff (isNumbered : document.IsNumbered) {bounds : Bounds Float32}
    {table : SampleTable Float32} :
    (sampled bounds table).Survives document ↔ ∀ size ∈ table.size, IsSize size := by
  have isTold : (sampled bounds table).IsTold ↔ ∀ size ∈ table.size, IsSize size := by rw [IsTold]
  constructor
  · intro survives
    rw [Survives, toObject, read_addStream fun _ => readWithin_sampled 0] at survives
    injection survives with same
    injection same with _ sameTable
    have sameSizes : table.size.map sizeRead = table.size.map id := by
      rw [List.map_id]
      exact congrArg SampleTable.size sameTable
    exact List.map_inj_left.1 sameSizes
  · intro areSizes
    exact (isTold.2 areSizes).survives isNumbered

/-- A function through given samples survives if and only if single precision holds the number of its
points. -/
theorem survives_throughSamples_iff (isNumbered : document.IsNumbered) {values : List Float32}
    (short : values.length < 2 ^ 63) (outputs : Nat) :
    (throughSamples values outputs).Survives document ↔
      Format.single.Holds (max (values.length / max outputs 1) 1) := by
  have fewer : values.length / max outputs 1 ≤ values.length := Nat.div_le_self _ _
  rw [throughSamples, survives_sampled_iff isNumbered]
  show (∀ size ∈ [max (values.length / max outputs 1) 1], IsSize size) ↔ _
  rw [List.forall_mem_singleton, isSize_iff_holds (by omega) (by omega)]

/-- Storing any function adds its streams, one for each function in it that has samples or a program,
and changes nothing else.  The function is then read from what is stored for it, if it was read from any
document with sizes that an integer can tell, or is one of the programs to gray.  A function through given
samples is read if and only if single precision holds the number of its points. -/
theorem survives_storing (isNumbered : document.IsNumbered) :
    (∀ function : NumericFunction Float32 Float,
      document.GainsStreams function.streams (function.toObject document).2) ∧
    (∀ source object function, read source object = .ok function → function.IsStorable →
      function.Survives document) ∧
    rgbToGray.Survives document ∧ inksToGray.Survives document ∧
    ∀ values outputs, values.length < 2 ^ 63 →
      ((throughSamples values outputs).Survives document ↔
        Format.single.Holds (max (values.length / max outputs 1) 1)) := by
  refine ⟨fun function => ?_, fun source object function isRead isStorable => ?_,
    ColorSpace.isTold_rgbToGray.survives isNumbered, ColorSpace.isTold_inksToGray.survives isNumbered,
    fun values outputs short => survives_throughSamples_iff isNumbered short outputs⟩
  · rw [snd_toObject]
    exact Document.gainsStreams_addStreams isNumbered function.streams
  · exact (isTold_of_readWithin isRead isStorable).survives isNumbered

/-- A function that is stitched together from a program, twice, survives in two streams.  A function
through one point more than all integers of 24 bits does not survive. -/
theorem survives_storing_stitched :
    ∃ function : NumericFunction Float32 Float,
      read ColorSpace.weighed (.dictionary (entriesOf ⟨unitIntervals 1, none⟩ 3
        [("Functions", .array [.reference ⟨1, 0⟩, .reference ⟨1, 0⟩]),
          ("Bounds", Object.reals [0.5]), ("Encode", Object.reals (unitIntervals 2))])) = .ok function ∧
      function = .stitched ⟨unitIntervals 1, none⟩ [.rgbToGray, .rgbToGray] [0.5] (unitIntervals 2) ∧
      function.streams.length = 2 ∧
      ColorSpace.weighed.GainsStreams function.streams (function.toObject ColorSpace.weighed).2 ∧
      function.Survives ColorSpace.weighed ∧
      (throughSamples (List.replicate (2 ^ 24) 0.0) 1).Survives ColorSpace.weighed ∧
      ¬(throughSamples (List.replicate (2 ^ 24 + 1) 0.0) 1).Survives ColorSpace.weighed := by
  have isPart : readWithin ColorSpace.weighed 1 (.reference ⟨1, 0⟩) = .ok .rgbToGray :=
    (readWithin_of_resolve (Document.resolve_reference rfl rfl)).trans
      (readWithin_calculator 0 ColorSpace.isTold_rgbToGray)
  have areParts : [Object.reference ⟨1, 0⟩, .reference ⟨1, 0⟩].mapM
      (readWithin ColorSpace.weighed 1) = .ok [.rgbToGray, .rgbToGray] := by
    simp only [List.mapM_cons, List.mapM_nil, isPart]
    rfl
  have isNumbered : ColorSpace.weighed.IsNumbered := Document.isNumbered_ofObjects _ _
  obtain ⟨gains, survives, -, -, samples⟩ := survives_storing isNumbered
  have isRead : read ColorSpace.weighed (.dictionary (entriesOf ⟨unitIntervals 1, none⟩ 3
      [("Functions", .array [.reference ⟨1, 0⟩, .reference ⟨1, 0⟩]),
        ("Bounds", Object.reals [0.5]), ("Encode", Object.reals (unitIntervals 2))])) =
      .ok (.stitched ⟨unitIntervals 1, none⟩ [.rgbToGray, .rgbToGray] [0.5] (unitIntervals 2)) :=
    read_of_readWithin (readWithin_stitched areParts)
  refine ⟨_, isRead, rfl, rfl, gains _, survives _ _ _ isRead ?_, (samples _ 1 ?_).2 ?_, fun odd => ?_⟩
  · simp only [IsStorable, AreStorable]
    exact ⟨ColorSpace.isTold_rgbToGray, ColorSpace.isTold_rgbToGray, trivial⟩
  · rw [List.length_replicate]
    decide
  · rw [List.length_replicate]
    exact ⟨by decide, by decide⟩
  · have held := (samples _ 1 (by rw [List.length_replicate]; decide)).1 odd
    rw [List.length_replicate] at held
    exact absurd held.2 (by decide)

end NumericFunction
end Monochrome
