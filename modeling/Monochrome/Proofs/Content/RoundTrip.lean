import Mathlib.Data.List.Forall2
import Monochrome.Proofs.Content.ImageRoundTrip

/-!
# Content read back

Written content is cut at its inline images again.  The runs of other operations between them are
passed over in the search for `BI`, and each image is read up to the end of its line, so that
what is read is what was written, whatever the data of the images contains.
-/

namespace Monochrome
namespace Operation

/-- Whether an operation is an inline image. -/
def isImage (operation : Operation) : Bool :=
  operation.keyword == "BI"

/-- Whether two operations are the same, up to the entries of an inline image that tell the length
of its data; what is read tells it in both. -/
inductive SameUpToLength : Operation → Operation → Prop
  /-- An operation that is no inline image is the same. -/
  | ordinary (operation : Operation) (notImage : operation.isImage = false) :
      SameUpToLength operation operation
  /-- An inline image has the same data and the same other entries. -/
  | image (original again : Stream)
      (sameData : again.data = original.data)
      (sameEntries : ∀ key, key ≠ Bytes.ascii "Length" → key ≠ Bytes.ascii "L" →
        again.entries.find? key = original.entries.find? key)
      (short : again.entries.get? "L" = some (.integer (Int64.ofNat original.data.length)))
      (full : again.entries.get? "Length" = some (.integer (Int64.ofNat original.data.length))) :
      SameUpToLength ⟨"BI", [original.toObject]⟩ ⟨"BI", [again.toObject]⟩

/-- Operations that are no inline images as they are written. -/
def printLines (run : List Operation) : Bytes :=
  run.flatMap fun operation => operation.print ++ [10]

/-- Lines of plain operations are passed over in a search for an inline image. -/
theorem passesOver_printLines {run : List Operation} {rest : Bytes}
    (plain : ∀ operation ∈ run, operation.IsPlain)
    (ordinary : ∀ operation ∈ run, operation.keyword ≠ "BI") :
    Lexeme.PassesOver (Bytes.ascii "BI") (printLines run) rest := by
  induction run with
  | nil => simp [printLines]
  | cons operation more inductionHypothesis =>
      have split : printLines (operation :: more) =
          (operation.print ++ [10]) ++ printLines more := by simp [printLines]
      rw [split]
      refine (passesOver_line (plain operation (by simp)) (ordinary operation (by simp))).append ?_
      exact inductionHypothesis (fun other inMore => plain other (by simp [inMore]))
        fun other inMore => ordinary other (by simp [inMore])

/-- A line of a plain operation holds more than blanks. -/
theorem IsPlain.exists_mem_print {operation : Operation} (plain : operation.IsPlain) :
    ∃ letter ∈ operation.print, Bytes.isBlank letter = false := by
  obtain ⟨letters, nonempty, isLetter, spelled⟩ := plain.keyword
  obtain ⟨letter, inWord⟩ := List.exists_mem_of_ne_nil _ nonempty
  have written : Text.toBytes operation.keyword = letters := by
    rw [spelled]
    exact toBytes_ofBytes fun other inLetters =>
      (isRegular_of_isOperatorByte other (isLetter other inLetters)).2
  have regular := (isRegular_of_isOperatorByte letter (isLetter letter inWord)).1
  refine ⟨letter, by simp [print, written, inWord], ?_⟩
  simp only [Bytes.isRegular, Bool.and_eq_true, Bool.not_eq_true'] at regular
  exact regular.1

end Operation

namespace Content

open Operation

/-- The blank, if any, that stands before a run of operations: every run but the first follows
the end of an inline image. -/
def IsGap (gap : Bytes) : Prop :=
  gap = [] ∨ gap = [10]

/-- What is assumed of the reader of plain content: it reads back the runs of operations between
inline images, and the headers of these. -/
structure ReadsBack (operations : List Operation) : Prop where
  runs : ∀ run ∈ operations.splitOnP isImage, run ≠ [] → ∀ gap, IsGap gap →
    Operation.readAll (gap ++ printLines run) = some run
  headers : ∀ image : Stream, ⟨"BI", [image.toObject]⟩ ∈ operations →
    InlineImage.HeaderReadsBack image

/-- Every inline image is a stream, whose dictionary has each key once and whose data has a length
of 63 bits, as the data of any stream has. -/
def HasStreams (operations : List Operation) : Prop :=
  ∀ operation ∈ operations, operation.isImage = true →
    ∃ image : Stream, operation.operands = [image.toObject] ∧
      image.entries.HasDistinctKeys ∧ image.data.length < 2 ^ 63

/-- Content ends with a run of operations, or has a first inline image after one. -/
theorem run_induction {motive : List Operation → Prop}
    (last : ∀ run, (∀ operation ∈ run, isImage operation = false) → motive run)
    (image : ∀ run first later, (∀ operation ∈ run, isImage operation = false) →
      isImage first = true → motive later → motive (run ++ first :: later))
    (operations : List Operation) : motive operations := by
  suffices before : ∀ run, (∀ operation ∈ run, isImage operation = false) →
      motive (run ++ operations) by
    simpa using before [] (by simp)
  induction operations with
  | nil => simpa using last
  | cons first later inductionHypothesis =>
      intro run ordinary
      cases atFirst : isImage first with
      | true => exact image run first later ordinary atFirst (by simpa using inductionHypothesis [])
      | false =>
          have longer := inductionHypothesis (run ++ [first]) (by
            intro operation inRun
            rcases List.mem_append.1 inRun with inOld | inNew
            · exact ordinary operation inOld
            · simpa [List.mem_singleton.1 inNew] using atFirst)
          simpa using longer

/-- Operations that are no inline images are written line by line. -/
theorem mapM_printOperation_run {run : List Operation}
    (ordinary : ∀ operation ∈ run, isImage operation = false) (rest : List Operation) :
    (run ++ rest).mapM printOperation =
      (return (run.map fun operation => operation.print ++ [10]) ++
        (← rest.mapM printOperation)) := by
  induction run with
  | nil => simp
  | cons operation more inductionHypothesis =>
      have notImage : operation.keyword ≠ "BI" := by
        simpa [isImage] using ordinary operation (by simp)
      rw [List.cons_append, List.mapM_cons,
        inductionHypothesis fun other inMore => ordinary other (by simp [inMore])]
      simp [printOperation, notImage]

/-- A run of operations is written as its lines. -/
theorem write_run {run : List Operation}
    (ordinary : ∀ operation ∈ run, isImage operation = false) :
    write run = .ok (printLines run) := by
  have written := mapM_printOperation_run ordinary []
  rw [List.append_nil] at written
  simp [write, written, printLines, List.flatMap, pure, Except.pure, bind, Except.bind]

/-- A run before an inline image and what follows is written piece by piece. -/
theorem write_image {run later : List Operation} {image : Stream} {bytes : Bytes}
    (ordinary : ∀ operation ∈ run, isImage operation = false)
    (written : write later = .ok bytes) :
    write (run ++ ⟨"BI", [image.toObject]⟩ :: later) =
      .ok (printLines run ++ (InlineImage.print image ++ bytes)) := by
  obtain ⟨pieces, atLater, rfl⟩ : ∃ pieces, later.mapM printOperation = .ok pieces ∧
      pieces.flatten = bytes := by
    cases atLater : later.mapM printOperation with
    | error fault => simp [write, atLater, bind, Except.bind] at written
    | ok pieces =>
        exact ⟨pieces, rfl, by simpa [write, atLater, bind, Except.bind, pure, Except.pure]
          using written⟩
  rw [write, mapM_printOperation_run ordinary, List.mapM_cons, atLater]
  simp [printOperation, Operands.inlineImage, Stream.toObject, printLines, List.flatMap, pure,
    Except.pure, bind, Except.bind]

/-- Operations of a run that is read back are plain. -/
theorem isPlain_of_readAll {run : List Operation} {bytes : Bytes}
    (ordinary : ∀ operation ∈ run, isImage operation = false)
    (readsBack : Operation.readAll bytes = some run) :
    ∀ operation ∈ run, operation.IsPlain := by
  intro operation inRun
  rcases isPlain_of_mem_readAll readsBack operation inRun with atImage | plain
  · have notImage := ordinary operation inRun
    simp [isImage, atImage] at notImage
  · exact plain

/-- A blank before a run is passed over together with the run. -/
theorem passesOver_run {gap rest : Bytes} {run : List Operation} (isGap : IsGap gap)
    (ordinary : ∀ operation ∈ run, isImage operation = false)
    (readsBack : run ≠ [] → Operation.readAll (gap ++ printLines run) = some run) :
    Lexeme.PassesOver (Bytes.ascii "BI") (gap ++ printLines run) rest := by
  have notImage : ∀ operation ∈ run, operation.keyword ≠ "BI" := fun operation inRun => by
    simpa [isImage] using ordinary operation inRun
  have passesGap : ∀ after, Lexeme.PassesOver (Bytes.ascii "BI") gap after := by
    intro after
    rcases isGap with rfl | rfl
    · simp
    · exact Lexeme.passesOver_byte (by simp)
  refine (passesGap _).append ?_
  by_cases empty : run = []
  · simp [empty, printLines]
  · exact passesOver_printLines (isPlain_of_readAll ordinary (readsBack empty)) notImage

/-- A run is read back as a segment. -/
theorem readSegment_run {gap : Bytes} {run : List Operation} (isGap : IsGap gap)
    (ordinary : ∀ operation ∈ run, isImage operation = false)
    (readsBack : run ≠ [] → Operation.readAll (gap ++ printLines run) = some run) :
    readSegment (gap ++ printLines run) = .ok run := by
  cases run with
  | nil =>
      have blank : (gap ++ printLines []).all Bytes.isBlank = true := by
        rcases isGap with rfl | rfl <;> decide
      simp [readSegment, blank]
  | cons operation more =>
      have again := readsBack (by simp)
      have plain := isPlain_of_readAll ordinary again operation (by simp)
      obtain ⟨letter, inLine, notBlank⟩ := plain.exists_mem_print
      have visible : (gap ++ printLines (operation :: more)).all Bytes.isBlank = false := by
        rw [List.all_eq_false]
        exact ⟨letter, by simp [printLines, inLine], by simp [notBlank]⟩
      simp [readSegment, visible, again]

/-- The operations of content are those of a segment, or of a segment, an inline image and what follows
it. -/
theorem read_eq (content : Bytes) :
    read content =
      match Lexeme.findWord (Bytes.ascii "BI") content with
      | none => readSegment content
      | some (before, after) => do
        let operations ← readSegment before
        let (image, rest) ← InlineImage.read after
        let others ← read rest
        return operations ++ imageOperation image :: others := by
  rw [read]
  split
  · rename_i found
    rw [found]
  · rename_i before after found
    rw [found]
    simp only
    cases readSegment before with
    | error fault => rfl
    | ok operations =>
        show _ = (InlineImage.read after >>= fun _ => _)
        simp only
        split
        · rename_i fault isRead
          rw [isRead]
          rfl
        · rename_i image rest isRead
          rw [isRead]
          rfl

/-- Content without inline images is read back as one run. -/
theorem read_run {gap : Bytes} {run : List Operation} (isGap : IsGap gap)
    (ordinary : ∀ operation ∈ run, isImage operation = false)
    (readsBack : run ≠ [] → Operation.readAll (gap ++ printLines run) = some run) :
    read (gap ++ printLines run) = .ok run := by
  have none : Lexeme.findWord (Bytes.ascii "BI") (gap ++ printLines run) = none := by
    have passes : Lexeme.PassesOver (Bytes.ascii "BI") (gap ++ printLines run) [] :=
      passesOver_run isGap ordinary readsBack
    simpa [Lexeme.PassesOver, Lexeme.findWord] using passes
  rw [read_eq, none]
  exact readSegment_run isGap ordinary readsBack

/-- A run and an inline image are read back, and reading goes on at the end of the image. -/
theorem read_image {gap bytes : Bytes} {run again : List Operation} {image : Stream}
    (isGap : IsGap gap)
    (ordinary : ∀ operation ∈ run, isImage operation = false)
    (readsBack : run ≠ [] → Operation.readAll (gap ++ printLines run) = some run)
    (distinct : image.entries.HasDistinctKeys) (bounded : image.data.length < 2 ^ 63)
    (header : InlineImage.HeaderReadsBack image)
    (later : read (10 :: bytes) = .ok again) :
    read (gap ++ printLines run ++ (InlineImage.print image ++ bytes)) =
      .ok (run ++ imageOperation (InlineImage.written image) :: again) := by
  have split : gap ++ printLines run ++ (InlineImage.print image ++ bytes) =
      gap ++ printLines run ++ (Bytes.ascii "BI" ++ (32 ::
        (Operation.printOperands (InlineImage.headerOperands image) ++ (Bytes.ascii "ID" ++
          32 :: (image.data ++ ([10, 69, 73, 10] ++ bytes)))))) := by
    simp [InlineImage.print_eq]
  have atImage : Lexeme.findWord (Bytes.ascii "BI")
      (gap ++ printLines run ++ (InlineImage.print image ++ bytes)) =
        some (gap ++ printLines run, 32 ::
          (Operation.printOperands (InlineImage.headerOperands image) ++ (Bytes.ascii "ID" ++
            32 :: (image.data ++ ([10, 69, 73, 10] ++ bytes))))) := by
    rw [split, passesOver_run isGap ordinary readsBack,
      Lexeme.findWord_keyword (by decide) (by decide +kernel) (Lexeme.endsToken_cons (by decide +kernel))]
    simp
  have image? := InlineImage.read_printed distinct bounded header bytes
  rw [read_eq, atImage]
  simp only [readSegment_run isGap ordinary readsBack, image?]
  show (read (10 :: bytes) >>= fun _ => _) = _
  rw [later]
  rfl

/-- A written inline image is the same, up to the entries that tell its length. -/
theorem sameUpToLength_written {image : Stream} (distinct : image.entries.HasDistinctKeys) :
    SameUpToLength ⟨"BI", [image.toObject]⟩ (imageOperation (InlineImage.written image)) := by
  refine SameUpToLength.image image _ rfl ?_ ?_ ?_
  · intro key notLength notShort
    have found := InlineImage.find?_writtenDictionary distinct notLength notShort
    simpa [InlineImage.written, Stream.ofData, Dictionary.set, Ne.symm notLength] using found
  · have differ : Bytes.ascii "Length" ≠ Bytes.ascii "L" := by decide
    have found := InlineImage.get?_L_writtenDictionary distinct
    simpa [InlineImage.written, Stream.ofData, Dictionary.set, Dictionary.get?, differ] using found
  · simp [InlineImage.written, Stream.ofData, Dictionary.set, Dictionary.get?]

/-- Content behind a gap is read back, as far as its runs and headers are. -/
theorem read_write_behind (operations : List Operation) (readsBack : ReadsBack operations)
    (streams : HasStreams operations) :
    ∃ bytes, write operations = .ok bytes ∧ ∀ gap, IsGap gap →
      ∃ again, read (gap ++ bytes) = .ok again ∧
        List.Forall₂ SameUpToLength operations again := by
  induction operations using run_induction with
  | last run ordinary =>
      have single : run.splitOnP isImage = [run] := List.splitOnP_eq_singleton ordinary
      refine ⟨printLines run, write_run ordinary, fun gap isGap => ⟨run, ?_, ?_⟩⟩
      · exact read_run isGap ordinary fun nonempty =>
          readsBack.runs run (by simp [single]) nonempty gap isGap
      · exact List.forall₂_same.2 fun operation inRun => .ordinary operation (ordinary operation inRun)
  | image run first later ordinary isFirst inductionHypothesis =>
      have pieces : (run ++ first :: later).splitOnP isImage = run :: later.splitOnP isImage := by
        rw [List.splitOnP_append_cons_of_forall_mem ordinary first isFirst]
      obtain ⟨image, operands, distinct, bounded⟩ := streams first (by simp) isFirst
      have atFirst : first = ⟨"BI", [image.toObject]⟩ := by
        cases first
        simp_all [isImage]
      subst atFirst
      obtain ⟨bytes, written, readLater⟩ := inductionHypothesis
        { runs := fun other inLater => readsBack.runs other (by simp [pieces, inLater])
          headers := fun other inLater => readsBack.headers other (by simp [inLater]) }
        (fun other inLater => streams other (by simp [inLater]))
      obtain ⟨again, read, same⟩ := readLater [10] (Or.inr rfl)
      refine ⟨_, write_image ordinary written, fun gap isGap =>
        ⟨run ++ imageOperation (InlineImage.written image) :: again, ?_, ?_⟩⟩
      · have lines := read_image isGap ordinary
          (fun nonempty => readsBack.runs run (by simp [pieces]) nonempty gap isGap)
          distinct bounded (readsBack.headers image (by simp)) read
        simpa using lines
      · refine List.rel_append (List.forall₂_same.2 fun operation inRun =>
          .ordinary operation (ordinary operation inRun)) ?_
        exact List.Forall₂.cons (sameUpToLength_written distinct) same

/-- Content is written and read back operation by operation, up to the lengths of the data of
inline images, whatever these data contain. -/
theorem read_write (operations : List Operation) (readsBack : ReadsBack operations)
    (streams : HasStreams operations) :
    ∃ bytes again, write operations = .ok bytes ∧ read bytes = .ok again ∧
      List.Forall₂ SameUpToLength operations again := by
  obtain ⟨bytes, written, readBehind⟩ := read_write_behind operations readsBack streams
  obtain ⟨again, read, same⟩ := readBehind [] (Or.inl rfl)
  exact ⟨bytes, again, written, read, same⟩

/-- An inline image whose data holds words and brackets of the notation of content. -/
def deceptiveImage : Stream :=
  ⟨Table.ofList [(Bytes.ascii "W", .integer 3)], Bytes.ascii "\nEI\n(<%BI ID"⟩

/-- An inline image between operations, one of which shows the word that begins an image. -/
def deceptiveContent : List Operation :=
  [⟨"q", []⟩, ⟨"BI", [deceptiveImage.toObject]⟩, ⟨"Tj", [.string (Bytes.ascii "BI)") .literal]⟩]

/-- The runs and the header of the deceptive content are read back. -/
theorem readsBack_deceptiveContent : ReadsBack deceptiveContent := by
  have runs : deceptiveContent.splitOnP isImage =
      [[⟨"q", []⟩], [⟨"Tj", [.string (Bytes.ascii "BI)") .literal]⟩]] := rfl
  constructor
  · intro run inRuns _ gap isGap
    rw [runs] at inRuns
    simp only [List.mem_cons, List.not_mem_nil, or_false] at inRuns
    rcases inRuns with rfl | rfl <;> rcases isGap with rfl | rfl <;> rfl
  · intro image inContent
    simp only [deceptiveContent, List.mem_cons, Operation.mk.injEq, List.not_mem_nil, or_false,
      String.reduceEq, false_and, List.cons.injEq, Stream.toObject, Object.stream.injEq,
      and_true, true_and, false_or] at inContent
    obtain ⟨sameEntries, sameData⟩ := inContent
    have same : image = deceptiveImage := by
      cases image
      simp_all
    rw [same]
    rfl

/-- The image of the deceptive content is a stream. -/
theorem hasStreams_deceptiveContent : HasStreams deceptiveContent := by
  intro operation inContent isImage
  simp only [deceptiveContent, List.mem_cons, List.not_mem_nil, or_false] at inContent
  rcases inContent with rfl | rfl | rfl
  · exact absurd isImage (by decide)
  · exact ⟨deceptiveImage, rfl, by simp [Table.HasDistinctKeys]; decide, by decide⟩
  · exact absurd isImage (by decide)

/-- The deceptive content is read back. -/
theorem read_write_deceptiveContent :
    ReadsBack deceptiveContent ∧ HasStreams deceptiveContent ∧
      ∃ bytes again, write deceptiveContent = .ok bytes ∧ read bytes = .ok again ∧
        List.Forall₂ SameUpToLength deceptiveContent again :=
  ⟨readsBack_deceptiveContent, hasStreams_deceptiveContent,
    read_write deceptiveContent readsBack_deceptiveContent hasStreams_deceptiveContent⟩

end Content
end Monochrome
