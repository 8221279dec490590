import Monochrome.Proofs.Circle
import Monochrome.Proofs.Limits
import Monochrome.Proofs.Object.Parts
import Monochrome.Proofs.Object.Settling

/-!
# Functions that are read to the end

The parts of a stitched function stand anywhere in the document, so they can come back to the
function itself.  Reading it ends exactly if its parts, and theirs, do not go in a circle, and then
it is nested no deeper than there are objects.
-/

namespace Monochrome
namespace NumericFunction

open Outcome

variable {document : Document}

/-- The parts of a function that are read after what stands before them: those of a stitched
function, none of other ones. -/
def partsOf (document : Document) (object : Object) : Outcome (List Object) := do
  let (entries, _) ← readForm (← document.resolve object)
  let some type := ← document.integerEntry? entries "FunctionType" | throw (.function .noType)
  let _ ← document.numbers (← entries.require "Domain")
  let _ ← (entries.get? "Range").mapM document.numbers
  if type = 3 then
    match ← document.resolve (← entries.require "Functions") with
    | .array items => return items
    | _ => throw (.mismatch .functionArray)
  else return []

/-- Whether reading a function reads another object as a part of it: one of its parts, if those
before it are read with success. -/
def Nests (document : Document) (object part : Object) : Prop :=
  ∃ before after, partsOf document object = .ok (before ++ part :: after) ∧
    ∀ earlier ∈ before, ∃ depth function, readWithin document depth earlier = .ok function

/-- Whether the parts of a function, and theirs, go in a circle. -/
def GoesRound (document : Document) (object : Object) : Prop :=
  ComesToCircle (Nests document) (fun _ => False) object

/-- Whether reading a function ends: within some depth, and within every greater one, it has one and
the same result, and does not pass that depth. -/
def Ends (document : Document) (object : Object) : Prop :=
  ∃ depth result, result ≠ .error .endless ∧
    ∀ more, depth ≤ more → readWithin document more object = result

theorem readForm_ne_endless {object : Object} : readForm object ≠ .error .endless := by
  cases object <;> simp [readForm]

theorem readTable_ne_endless {stream : Stream} {range : Option (List Float32)} :
    readTable document stream range ≠ .error .endless := by
  refine bind_ne_error Dictionary.require_ne_endless fun _ => ?_
  refine bind_ne_error Document.numbers_ne_endless fun _ => ?_
  refine bind_ne_error Document.integerEntry?_ne_endless fun _ => ?_
  refine bind_ne_error Document.numbersOr_ne_endless fun _ => ?_
  split
  · exact bind_ne_error Document.numbers_ne_endless fun _ => by simp [map_eq_error]
  · simp [map_eq_error]
  · exact bind_ne_error (by simp [throw_eq_error]) fun _ => by simp [map_eq_error]

theorem readProgram_ne_endless {stream : Stream} :
    readProgram document stream ≠ .error .endless := by
  refine bind_ne_error Stream.content_ne_endless fun data => ?_
  cases (Calculator.read data : Except FunctionFault (Calculator.Program Float)) <;>
    simp [Except.mapError]

/-- Reading a function fails for its depth if reading its parts does. -/
theorem readWithin_eq_endless_iff {depth : Nat} {object : Object} :
    readWithin document (depth + 1) object = .error .endless ↔
      ∃ items, partsOf document object = .ok items ∧
        items.mapM (readWithin document depth) = .error .endless := by
  refine bind_eq_error_iff Document.resolve_ne_endless fun value => ?_
  refine bind_eq_error_iff readForm_ne_endless fun ⟨entries, stream⟩ => ?_
  refine bind_eq_error_iff Document.integerEntry?_ne_endless fun found => ?_
  cases found with
  | none => simp [throw_eq_error, throw_eq_ok]
  | some type =>
  dsimp only
  refine bind_eq_error_iff Dictionary.require_ne_endless fun domain => ?_
  refine bind_eq_error_iff Document.numbers_ne_endless fun domain => ?_
  have rangeSettles : (entries.get? "Range").mapM document.numbers ≠ .error .endless := by
    cases entries.get? "Range" <;> simp [pure_ne_error, map_eq_error]
  refine bind_eq_error_iff rangeSettles fun range => ?_
  by_cases isStitched : type = 3
  · subst isStitched
    rw [if_neg (by decide), if_pos rfl, if_pos rfl]
    refine bind_eq_error_iff Dictionary.require_ne_endless fun parts => ?_
    refine bind_eq_error_iff Document.resolve_ne_endless fun parts => ?_
    cases parts with
    | array items =>
        constructor
        · intro failed
          rcases bind_eq_error.mp failed with failed | ⟨parts, _, failed⟩
          · exact ⟨items, rfl, failed⟩
          · refine absurd failed (bind_ne_error Dictionary.require_ne_endless fun _ => ?_)
            refine bind_ne_error Document.numbers_ne_endless fun _ => ?_
            refine bind_ne_error Dictionary.require_ne_endless fun _ => ?_
            exact bind_ne_error Document.numbers_ne_endless fun _ => pure_ne_error
        · rintro ⟨_, same, failed⟩
          obtain rfl := pure_eq_ok.mp same
          exact bind_eq_error.mpr (Or.inl failed)
    | _ => simp [throw_eq_error, throw_eq_ok]
  · rw [if_neg isStitched, if_neg isStitched]
    refine iff_of_false ?_ (by simp [pure_eq_ok, pure_ne_error])
    split
    · refine bind_ne_error Document.numbersOr_ne_endless fun _ => ?_
      refine bind_ne_error Document.numbersOr_ne_endless fun _ => ?_
      refine bind_ne_error Dictionary.require_ne_endless fun _ => ?_
      refine bind_ne_error Document.resolve_ne_endless fun _ => ?_
      exact bind_ne_error Object.asNumber_ne_endless fun _ => pure_ne_error
    · cases stream with
      | none => simp [throw_eq_error]
      | some stream =>
          dsimp only
          split
          · exact bind_ne_error readTable_ne_endless fun _ => pure_ne_error
          · split
            · exact bind_ne_error readProgram_ne_endless fun _ => pure_ne_error
            · simp [throw_eq_error]

/-- Reading a function is the same within every greater depth, unless it passes the smaller one. -/
theorem readWithin_upTo {depth more : Nat} (deeper : depth ≤ more) (object : Object) :
    Limited.UpTo .endless (readWithin document depth object) (readWithin document more object) := by
  induction depth generalizing more object with
  | zero => exact fun settles => absurd rfl settles
  | succ depth inductionHypothesis =>
      obtain ⟨more, rfl⟩ := Nat.exists_eq_add_of_le' deeper
      rw [← Nat.add_assoc]
      unfold readWithin
      refine .bind (.refl _) fun value => .bind (.refl _) fun ⟨entries, stream⟩ => ?_
      refine .bind (.refl _) fun found => ?_
      cases found with
      | none => exact .refl _
      | some type =>
      refine .bind (.refl _) fun domain => .bind (.refl _) fun domain => ?_
      refine .bind (.refl _) fun range => ?_
      by_cases isStitched : type = 3
      · subst isStitched
        refine .bind (.refl _) fun parts => .bind (.refl _) fun parts => ?_
        cases parts with
        | array items =>
            exact .bind (.mapM fun part => inductionHypothesis (Nat.le_add_left _ _) part)
              fun _ => .refl _
        | _ => exact .refl _
      · dsimp only
        rw [if_neg isStitched, if_neg isStitched]
        exact .refl _

/-- Reading a function calls itself for its parts, and fails for its depth only if one of these
calls does. -/
theorem isRecursion_readWithin (document : Document) :
    IsRecursion .endless (readWithin document) (Nests document) fun _ => False where
  none _ := rfl
  on depth object passed := by
    obtain ⟨items, atParts, failed⟩ := readWithin_eq_endless_iff.mp passed
    obtain ⟨before, part, after, rfl, succeeds, failed⟩ := mapM_eq_error.mp failed
    exact Or.inl ⟨part,
      ⟨before, after, atParts, fun earlier member => ⟨depth, succeeds earlier member⟩⟩,
      failed⟩
  back depth object part := by
    rintro ⟨before, after, atParts, succeeds⟩ failed
    refine readWithin_eq_endless_iff.mpr
      ⟨_, atParts, mapM_eq_error_of (fun earlier member => ?_) failed⟩
    obtain ⟨other, function, succeeded⟩ := succeeds earlier member
    exact (Limited.eq_limit_or_ok (fun deeper => readWithin_upTo deeper earlier) succeeded
      depth).imp_right
      fun succeeded => ⟨function, succeeded⟩
  stop _ _ stops := stops.elim
  more _ _ object deeper := readWithin_upTo deeper object

/-- The dictionary of a function is that of its object. -/
theorem entries?_of_readForm {value : Object} {entries : Dictionary} {stream : Option Stream}
    (done : readForm value = .ok (entries, stream)) : value.entries? = some entries := by
  cases value <;> simp_all [readForm, Object.entries?]

/-- The parts of a function among the objects of a document are among them. -/
theorem mem_objectsWith_of_nests {whole object part : Object}
    (isObject : object ∈ document.objectsWith whole) (nests : Nests document object part) :
    part ∈ document.objectsWith whole := by
  obtain ⟨before, after, atParts, -⟩ := nests
  simp only [partsOf, bind_eq_ok] at atParts
  obtain ⟨value, resolves, ⟨entries, stream⟩, hasForm, found, -, atParts⟩ := atParts
  cases found with
  | none => simp [throw_eq_ok] at atParts
  | some type =>
  simp only [bind_eq_ok] at atParts
  obtain ⟨_, _, _, _, _, _, atParts⟩ := atParts
  split at atParts
  · simp only [bind_eq_ok] at atParts
    obtain ⟨functions, isEntry, parts, resolvesParts, atParts⟩ := atParts
    cases parts with
    | array items =>
        obtain rfl := pure_eq_ok.mp atParts
        have isValue := Document.mem_objectsWith_of_resolve isObject resolves
        have isFunctions := Document.mem_objectsWith_of_entry isValue (entries?_of_readForm hasForm)
          (Dictionary.require_eq_ok.mp isEntry)
        have isArray := Document.mem_objectsWith_of_resolve isFunctions resolvesParts
        exact Document.mem_objectsWith_of_item isArray (by simp)
    | _ => simp [throw_eq_ok] at atParts
  · simp [pure_eq_ok] at atParts

/-- Reading a function ends exactly if its parts go in no circle; it is nested no deeper than there
are objects. -/
theorem readWithin_tfae (document : Document) (object : Object) :
    [Ends document object,
      ∀ depth, document.size + object.size ≤ depth →
        readWithin document depth object ≠ .error .endless,
      read document object ≠ .error .endless,
      ¬ GoesRound document object].TFAE := by
  rw [← Document.length_objectsWith]
  refine (isRecursion_readWithin document).ends_tfae
    (fun _ isObject _ nests => mem_objectsWith_of_nests isObject nests)
    (List.mem_append_left _ object.mem_parts_self) ?_
  rw [Document.length_objectsWith, readingBudget]
  omega

end NumericFunction
end Monochrome
