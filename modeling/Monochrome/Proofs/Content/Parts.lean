import Monochrome.Proofs.Content.Positions
import Monochrome.Proofs.Content.RoundTrip
import Monochrome.Proofs.Limits

/-!
# The parts of content

Content is read part by part: segments of operations, and between them inline images, each from its word
`BI` to the end of its `EI`.  Read by positions, the parts begin where the part before ends, the first at
the start of the content and the last to its end.
-/

namespace Monochrome
namespace Positions

open Limited

/-! ## Reading by positions -/

/-- A part of content, from one position to another. -/
structure Part where
  isImage : Bool
  start : Nat
  stop : Nat
deriving DecidableEq, Repr

/-- The bytes of a part. -/
def Part.bytes (content : Bytes) (part : Part) : Bytes :=
  (slice? content part.start part.stop).getD []

section Readers

variable (content : Bytes)

/-- The end of data whose length is known, and the position behind the `EI` after it. -/
def exactEnd (start : Nat) : Option Nat → Except Stop (Option (Nat × Nat))
  | none => return none
  | some length =>
    if start + length ≤ content.length then
      return (← endAfterBlanks content (start + length)).map ((start + length, ·))
    else return none

/-- The end of the data of an inline image, and the position behind the `EI` after it. -/
def imageEnd (start : Nat) (length? : Option Nat) : Except Stop (Option (Nat × Nat)) := do
  match ← exactEnd content start length? with
  | some found => return some found
  | none => scanForEnd content start (content.length + 1) start

/-- Takes the data of an inline image whose word `ID` ends at a position, and gives the position behind
its `EI`. -/
def readDataAt (dictionary : Dictionary) (position : Nat) :
    Except Stop (Outcome (Stream × Nat)) := do
  let start := if content[position]?.any Bytes.isBlank then position + 1 else position
  match ← imageEnd content start (InlineImage.dataLength? dictionary) with
  | none => return .error (.content .noImageEnd)
  | some (stop, next) =>
    return .ok (Stream.ofData dictionary (← slice content start stop), next)

/-- Reads an inline image whose word `BI` ends at a position, and gives the position behind its `EI`. -/
def readImageAt (position : Nat) : Except Stop (Outcome (Stream × Nat)) := do
  match ← findKeyword content (Bytes.ascii "ID") (content.length + 1) position with
  | none => return .error (.content .noImageData)
  | some word =>
    match InlineImage.readDictionary (← slice content position word) with
    | .error fault => return .error fault
    | .ok dictionary => readDataAt content dictionary (word + 2)

/-- The operations of content from a position on, and the parts that they are read from. -/
def readParts : Nat → Nat → Except Stop (Outcome (List Operation × List Part))
  | 0, _ => .error .unfinished
  | steps + 1, position => do
    match ← findKeyword content (Bytes.ascii "BI") (content.length + 1) position with
    | none =>
      let segment ← slice content position content.length
      return (Content.readSegment segment).map fun operations =>
        (operations, [⟨false, position, content.length⟩])
    | some word =>
      match Content.readSegment (← slice content position word) with
      | .error fault => return .error fault
      | .ok operations =>
        match ← readImageAt content (word + 2) with
        | .error fault => return .error fault
        | .ok (image, next) =>
          return (← readParts steps next).map fun (others, parts) =>
            (operations ++ Content.imageOperation image :: others,
              ⟨false, position, word⟩ :: ⟨true, word, next⟩ :: parts)

end Readers

variable {content : Bytes} {position steps : Nat}

/-! ## Inline images -/

/-- The blank that data may begin behind is seen at its position. -/
theorem dropBlank_drop (content : Bytes) (position : Nat) :
    InlineImage.dropBlank (content.drop position) =
      content.drop (if content[position]?.any Bytes.isBlank then position + 1 else position) := by
  rw [← List.head?_drop]
  cases suffix : content.drop position with
  | nil => exact suffix.symm
  | cons byte rest =>
      have behind : content.drop (position + 1) = rest :=
        drop_add_length (show content.drop position = [byte] ++ rest from suffix)
      rw [InlineImage.dropBlank, List.head?_cons, Option.any_some]
      split
      · exact behind.symm
      · exact suffix.symm

/-- The end of data whose length is known is the one that the content behind its start has. -/
theorem exactEnd_eq {start : Nat} (inside : start ≤ content.length) (length? : Option Nat) :
    exactEnd content start length? =
      .ok ((length?.bind (InlineImage.ofLength? · (content.drop start))).map fun found =>
        (start + found.1.length, content.length - found.2.length)) := by
  cases length? with
  | none => rfl
  | some length =>
      rw [exactEnd, Option.bind_some, InlineImage.ofLength?, List.drop_drop, List.length_drop]
      by_cases fits : start + length ≤ content.length
      · have isTaken : ((content.drop start).take length).length = length := by
          rw [List.length_take, List.length_drop]
          omega
        rw [if_pos fits, if_pos (by omega), endAfterBlanks_eq, Option.map_map]
        show Except.ok (Option.map _ (Option.map _ _)) = _
        rw [Option.map_map]
        simp only [Function.comp_def, isTaken]
      · rw [if_neg fits, if_neg (by omega)]
        rfl

/-- The end of the data of an inline image is the one that is found in the content behind its start. -/
theorem imageEnd_eq {start : Nat} (inside : start ≤ content.length) (length? : Option Nat) :
    imageEnd content start length? =
      .ok (((length?.bind (InlineImage.ofLength? · (content.drop start))).or
        (InlineImage.scan? (content.drop start))).map fun found =>
          (start + found.1.length, content.length - found.2.length)) := by
  rw [imageEnd, exactEnd_eq inside]
  cases length?.bind (InlineImage.ofLength? · (content.drop start)) with
  | none => exact scanForEnd_eq (by omega)
  | some found => rfl

/-- Data that is taken by its length goes before blanks and an `EI`. -/
theorem parts_of_ofLength? {length : Nat} {bytes data after : Bytes}
    (found : InlineImage.ofLength? length bytes = some (data, after)) :
    ∃ blanks, bytes = data ++ (blanks ++ (Bytes.ascii "EI" ++ after)) := by
  rw [InlineImage.ofLength?] at found
  split at found
  · obtain ⟨_, isEnd, isFound⟩ := Option.map_eq_some_iff.1 found
    obtain ⟨rfl, rfl⟩ := Prod.mk.inj isFound
    refine ⟨(bytes.drop length).takeWhile Bytes.isBlank, ?_⟩
    rw [← (afterEnd?_eq_some_iff.1 isEnd).1, List.takeWhile_append_dropWhile, List.take_append_drop]
  · cases found

/-- The end of data that is known by its length or found by a scan goes before blanks and an `EI`. -/
theorem parts_of_end {length? : Option Nat} {bytes data after : Bytes}
    (found : (length?.bind (InlineImage.ofLength? · bytes)).or (InlineImage.scan? bytes) =
      some (data, after)) :
    ∃ blanks, bytes = data ++ (blanks ++ (Bytes.ascii "EI" ++ after)) := by
  rcases Option.or_eq_some_iff.1 found with isExact | ⟨-, isScanned⟩
  · obtain ⟨length, -, isTaken⟩ := Option.bind_eq_some_iff.1 isExact
    exact parts_of_ofLength? isTaken
  · exact parts_of_scan? isScanned

/-- The data of an inline image is taken from where its dictionary ends. -/
theorem readDataAt_eq (inside : position ≤ content.length) (dictionary : Dictionary) :
    readDataAt content dictionary position =
      .ok (match ((InlineImage.dataLength? dictionary).bind
          (InlineImage.ofLength? · (InlineImage.dropBlank (content.drop position)))).or
            (InlineImage.scan? (InlineImage.dropBlank (content.drop position))) with
        | none => .error (.content .noImageEnd)
        | some (data, rest) =>
          .ok (Stream.ofData dictionary data, content.length - rest.length)) := by
  have inside : (if content[position]?.any Bytes.isBlank then position + 1 else position) ≤
      content.length := by
    split
    · rename_i isBlank
      obtain ⟨_, isByte, -⟩ := (Option.any_eq_true _ _).1 isBlank
      exact (List.getElem?_eq_some_iff.1 isByte).1
    · exact inside
  rw [readDataAt, dropBlank_drop]
  generalize (if content[position]?.any Bytes.isBlank then position + 1 else position) = start
    at inside ⊢
  simp only [imageEnd_eq inside]
  cases ended : ((InlineImage.dataLength? dictionary).bind
      (InlineImage.ofLength? · (content.drop start))).or (InlineImage.scan? (content.drop start)) with
  | none => rfl
  | some found =>
      obtain ⟨data, after⟩ := found
      obtain ⟨blanks, parts⟩ := parts_of_end ended
      show (slice content start (start + data.length) >>= fun _ => _) = _
      rw [slice_of_drop inside parts]
      rfl

/-- An inline image is read where its word ends, and what follows it is behind its `EI`. -/
theorem readImageAt_eq (inside : position ≤ content.length) :
    readImageAt content position =
      .ok ((InlineImage.read (content.drop position)).map fun found =>
        (found.1, content.length - found.2.length)) := by
  rw [readImageAt, findKeyword_eq (by omega), InlineImage.read]
  cases found : Lexeme.findWord (Bytes.ascii "ID") (content.drop position) with
  | none => rfl
  | some parts =>
      obtain ⟨header, data⟩ := parts
      obtain ⟨isHeader, isWord, behind⟩ := positions_of_findWord inside found
      have inWord := le_length_of_slice? isWord
      rw [show (Bytes.ascii "ID").length = 2 from rfl] at inWord behind
      show (slice content position (position + header.length) >>= fun _ => _) = _
      rw [isHeader]
      show (match InlineImage.readDictionary header with
        | Except.error fault => Except.ok (Except.error fault)
        | Except.ok dictionary => readDataAt content dictionary (position + header.length + 2)) = _
      simp only
      cases InlineImage.readDictionary header with
      | error fault => rfl
      | ok dictionary =>
          simp only [readDataAt_eq inWord, behind]
          generalize ((InlineImage.dataLength? dictionary).bind
            (InlineImage.ofLength? · (InlineImage.dropBlank data))).or
              (InlineImage.scan? (InlineImage.dropBlank data)) = ended
          cases ended <;> rfl

/-- What is read as an inline image ends with the `EI` before what follows it, and is no shorter than the
words `ID` and `EI`. -/
theorem parts_of_read {bytes rest : Bytes} {image : Stream}
    (isRead : InlineImage.read bytes = .ok (image, rest)) :
    ∃ before, bytes = before ++ (Bytes.ascii "EI" ++ rest) ∧ 2 ≤ before.length := by
  rw [InlineImage.read] at isRead
  split at isRead
  · cases isRead
  · rename_i header behind found
    split at isRead
    · cases isRead
    · simp only at isRead
      split at isRead
      · cases isRead
      · rename_i data after ended
        obtain ⟨-, rfl⟩ := Prod.mk.inj (Except.ok.inj isRead)
        obtain ⟨blanks, parts⟩ := parts_of_end ended
        obtain ⟨blank, isBehind⟩ : ∃ blank, behind = blank ++ InlineImage.dropBlank behind := by
          fun_cases InlineImage.dropBlank behind with
          | case1 => exact ⟨[], rfl⟩
          | case2 byte rest => exact ⟨[byte], rfl⟩
          | case3 => exact ⟨[], rfl⟩
        refine ⟨header ++ (Bytes.ascii "ID" ++ (blank ++ (data ++ blanks))), ?_, ?_⟩
        · have whole := Lexeme.append_of_findWord found
          rw [isBehind, parts] at whole
          rw [← whole]
          simp only [List.append_assoc]
        · simp only [List.length_append, show (Bytes.ascii "ID").length = 2 from rfl]
          omega

/-! ## Content -/

/-- Parts that begin at a position, each where the one before ends, and end at the end of the content.
They are segments and inline images in turn, and an image begins with its word `BI` and ends with its
`EI`. -/
inductive Tiles (content : Bytes) : Nat → List Part → Prop
  | segment {start : Nat} (inside : start ≤ content.length) :
      Tiles content start [⟨false, start, content.length⟩]
  | image {start word next : Nat} {parts : List Part} (isBehind : start ≤ word)
      (isLonger : word + 4 ≤ next)
      (opens : slice? content word (word + 2) = some (Bytes.ascii "BI"))
      (closes : slice? content (next - 2) next = some (Bytes.ascii "EI"))
      (others : Tiles content next parts) :
      Tiles content start (⟨false, start, word⟩ :: ⟨true, word, next⟩ :: parts)

/-- What follows an inline image begins behind the `EI` of the image. -/
theorem positions_of_read {rest : Bytes} {image : Stream} (inside : position ≤ content.length)
    (isRead : InlineImage.read (content.drop position) = .ok (image, rest)) :
    position + 4 ≤ content.length - rest.length ∧
      slice? content (content.length - rest.length - 2) (content.length - rest.length) =
        some (Bytes.ascii "EI") ∧
      content.drop (content.length - rest.length) = rest := by
  obtain ⟨before, parts, atLeast⟩ := parts_of_read isRead
  obtain ⟨isNext, closes, isRest⟩ := positions_of_suffix inside parts
  exact ⟨by omega, closes, isRest⟩

/-- Content is read by positions as it is read by what is left of it, from parts that tile it. -/
theorem readParts_eq (inside : position ≤ content.length)
    (enough : content.length - position < steps) :
    ∃ result, readParts content steps position = .ok result ∧
      Content.read (content.drop position) = result.map Prod.fst ∧
      ∀ operations parts, result = .ok (operations, parts) → Tiles content position parts := by
  induction steps generalizing position with
  | zero => omega
  | succ steps inductionHypothesis =>
      rw [readParts, findKeyword_eq (by omega), Content.read_eq]
      cases found : Lexeme.findWord (Bytes.ascii "BI") (content.drop position) with
      | none =>
          simp only [ok_bind, Option.map_none, slice_to_end inside]
          cases Content.readSegment (content.drop position) with
          | error fault => exact ⟨.error fault, rfl, rfl, nofun⟩
          | ok operations =>
              refine ⟨.ok (operations, _), rfl, rfl, fun _ parts isResult => ?_⟩
              obtain ⟨-, rfl⟩ := Prod.mk.inj (Except.ok.inj isResult)
              exact .segment inside
      | some parts =>
          obtain ⟨before, after⟩ := parts
          obtain ⟨isSegment, opens, behind⟩ := positions_of_findWord inside found
          have inWord := le_length_of_slice? opens
          rw [show (Bytes.ascii "BI").length = 2 from rfl] at opens behind inWord
          simp only [ok_bind, Option.map_some, isSegment]
          cases Content.readSegment before with
          | error fault => exact ⟨.error fault, rfl, rfl, nofun⟩
          | ok operations =>
              simp only [ok_bind, readImageAt_eq inWord, behind]
              cases isRead : InlineImage.read after with
              | error fault => exact ⟨.error fault, rfl, rfl, nofun⟩
              | ok image =>
                  obtain ⟨image, rest⟩ := image
                  rw [← behind] at isRead
                  obtain ⟨isLater, closes, isRest⟩ := positions_of_read inWord isRead
                  -- The words of the image are four bytes, so that a step less is enough for the rest.
                  have fewer : content.length - (content.length - rest.length) < steps := by omega
                  obtain ⟨result, isResult, isSame, tiles⟩ :=
                    inductionHypothesis (Nat.sub_le _ _) fewer
                  rw [isRest] at isSame
                  simp only [ok_bind, Except.map, isResult, isSame]
                  cases result with
                  | error fault => exact ⟨.error fault, rfl, rfl, nofun⟩
                  | ok others =>
                      refine ⟨.ok (operations ++ _ :: others.1, _), rfl, rfl,
                        fun _ parts isResult => ?_⟩
                      obtain ⟨-, rfl⟩ := Prod.mk.inj (Except.ok.inj isResult)
                      exact .image (Nat.le_add_right _ _) (by omega) opens closes (tiles _ _ rfl)

variable {start : Nat} {parts : List Part}

/-- Parts that tile content lie one behind the other from their start on, and inside of the content. -/
theorem Tiles.within (tiles : Tiles content start parts) :
    ∀ part ∈ parts, start ≤ part.start ∧ part.start ≤ part.stop ∧ part.stop ≤ content.length := by
  induction tiles with
  | segment inside => simpa using inside
  | @image start word next parts isBehind isLonger opens closes others inductionHypothesis =>
      have inside := le_length_of_slice? closes
      intro part isPart
      rcases List.mem_cons.1 isPart with rfl | isPart
      · exact ⟨Nat.le_refl _, isBehind, by simp only; omega⟩
      rcases List.mem_cons.1 isPart with rfl | isPart
      · exact ⟨isBehind, by simp only; omega, inside⟩
      · obtain ⟨isLater, inOrder⟩ := inductionHypothesis part isPart
        exact ⟨by omega, inOrder⟩

/-- Parts that tile content are disjoint. -/
theorem Tiles.pairwise (tiles : Tiles content start parts) :
    parts.Pairwise fun earlier later => earlier.stop ≤ later.start := by
  induction tiles with
  | segment inside => exact List.pairwise_singleton _ _
  | @image start word next parts isBehind isLonger opens closes others inductionHypothesis =>
      have isLater := fun part isPart => (others.within part isPart).1
      refine .cons (fun part isPart => ?_) (.cons isLater inductionHypothesis)
      rcases List.mem_cons.1 isPart with rfl | isPart
      · exact Nat.le_refl _
      · have := isLater part isPart
        simp only
        omega

/-- The bytes of a part and those behind it are the bytes from its start on. -/
theorem Part.bytes_append (part : Part) (inOrder : part.start ≤ part.stop)
    (inside : part.stop ≤ content.length) :
    part.bytes content ++ content.drop part.stop = content.drop part.start := by
  obtain ⟨text, isSlice⟩ : ∃ text, slice? content part.start part.stop = some text :=
    ⟨_, if_pos ⟨inOrder, inside⟩⟩
  rw [Part.bytes, isSlice, Option.getD_some, drop_of_slice? isSlice]

/-- The bytes of parts that tile content are all its bytes from their start on. -/
theorem Tiles.flatMap_bytes (tiles : Tiles content start parts) :
    parts.flatMap (Part.bytes content) = content.drop start := by
  induction tiles with
  | @segment start inside =>
      have last := Part.bytes_append ⟨false, start, content.length⟩ inside (Nat.le_refl _)
      rwa [List.drop_length] at last
  | @image start word next parts isBehind isLonger opens closes others inductionHypothesis =>
      have inside := le_length_of_slice? closes
      have inWord : word ≤ content.length := by omega
      have inOrder : word ≤ next := by omega
      have segment := Part.bytes_append ⟨false, start, word⟩ isBehind inWord
      have image := Part.bytes_append ⟨true, word, next⟩ inOrder inside
      rw [List.flatMap_cons, List.flatMap_cons, inductionHypothesis, image, segment]

/-- Reading content ends, and takes nothing from outside of it.  So do the scanners, from wherever they
start.  The parts that content is read from are disjoint and in order, and are all of the content. -/
theorem ends_inside (content : Bytes) :
    (∀ start steps, start ≤ content.length → content.length - start < steps →
      ScannersEnd content start steps) ∧
    ∃ result, readParts content (content.length + 1) 0 = .ok result ∧
      Content.read content = result.map Prod.fst ∧
      ∀ operations parts, result = .ok (operations, parts) →
        Tiles content 0 parts ∧
        (parts.Pairwise fun earlier later => earlier.stop ≤ later.start) ∧
        parts.flatMap (Part.bytes content) = content := by
  refine ⟨fun start steps inside enough => scannersEnd inside enough, ?_⟩
  obtain ⟨result, isResult, isRead, tiles⟩ :=
    readParts_eq (Nat.zero_le content.length) (Nat.lt_succ_self content.length)
  refine ⟨result, isResult, isRead, fun operations parts isParts => ?_⟩
  have tiles := tiles operations parts isParts
  exact ⟨tiles, tiles.pairwise, tiles.flatMap_bytes⟩

/-- Content with an inline image of three bytes, which open a string that is never closed and hold an
`EI`. -/
def trickyContent : Bytes :=
  Bytes.ascii "q BI/W 3/H 1 ID (EI EI Q"

/-- The tricky content is read in three parts, and a string that begins in its image is left at the end. -/
theorem ends_inside_trickyContent :
    (∃ operations,
      readParts trickyContent 25 0 =
        .ok (.ok (operations, [⟨false, 0, 2⟩, ⟨true, 2, 22⟩, ⟨false, 22, 24⟩])) ∧
      Content.read trickyContent = .ok operations ∧
      Tiles trickyContent 0 [⟨false, 0, 2⟩, ⟨true, 2, 22⟩, ⟨false, 22, 24⟩]) ∧
    ∃ stop, skipString trickyContent true 9 16 0 = .ok stop ∧ 16 < stop ∧ stop ≤ 24 := by
  obtain ⟨scanners, result, isResult, isRead, tiles⟩ := ends_inside trickyContent
  have isParts : (readParts trickyContent 25 0).map (·.map Prod.snd) =
      .ok (.ok [⟨false, 0, 2⟩, ⟨true, 2, 22⟩, ⟨false, 22, 24⟩]) := by decide +kernel
  constructor
  · rw [show readParts trickyContent 25 0 = .ok result from isResult] at isParts ⊢
    cases result with
    | error fault => cases isParts
    | ok found =>
        obtain ⟨operations, parts⟩ := found
        cases isParts
        exact ⟨operations, rfl, isRead, (tiles _ _ rfl).1⟩
  · obtain ⟨stop, isStop, -, inside⟩ :=
      (scanners 16 9 (by decide) (by decide)).string true (by decide)
    exact ⟨stop, isStop, inside⟩

end Positions
end Monochrome
