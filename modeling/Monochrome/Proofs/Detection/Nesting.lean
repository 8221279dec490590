import Monochrome.Proofs.Conversion.Nesting
import Monochrome.Proofs.Detection.Judging

/-!
# Streams nested in a search

A search, too, comes to a stream with exactly those on its trail that enclose it.  Conversions and
searches are guarded alike: whatever they go through and however they end, the trail is as it was.
-/

namespace Monochrome
namespace Detection
open Change

/-- Whether two ways to search nested streams say the same with a detector, which they leave as it
was. -/
def StreamDetection.Alike (detector : Detector) (detect other : StreamDetection) : Prop :=
  ∀ location content scope state, Change.Alike (· = detector) (fun _ => True)
    (detect location content scope) (other location content scope) state

/-- Whether two steps of a scan with a detector come to the same, and leave the detector as it
was. -/
abbrev ScansAlike {α : Type} (detector : Detector) (first second : Change Scan α) : Prop :=
  ∀ scan, Change.Alike (fun scan : Scan => scan.detector = detector) (fun _ => True) first second
    scan

variable {detector : Detector} {detect other : StreamDetection}

/-- A step of the detector is alike in a scan. -/
theorem scansAlike_onDetector {first second : Change Detector Bool}
    (alike : ∀ state, Change.Alike (· = detector) (fun _ => True) first second state) :
    ScansAlike detector (onDetector first) (onDetector second) :=
  fun scan => (alike scan.detector).within (fun held => held) fun _ _ held => held

/-- A judgement is remembered alike. -/
theorem scansAlike_once {table : Scan → Table String Bool}
    {replace : Table String Bool → Scan → Scan} {name : String} {first second : Change Scan Bool}
    (keeps : ∀ changed scan, (replace changed scan).detector = scan.detector)
    (alike : ScansAlike detector first second) :
    ScansAlike detector (once table replace name first) (once table replace name second) := by
  intro scan
  refine alike_get_bind fun _ => ?_
  split
  · exact keeps_pure trivial
  · refine (alike scan).bind fun colored after _ => ?_
    exact Alike.bind (keeps_modify fun held => (keeps _ after).trans held) fun _ _ _ =>
      keeps_pure trivial

/-- A shading is judged by a detector that is left as it was. -/
theorem keeps_shadingColored (scope : Scope) (name : String) :
    ScansAlike detector (shadingColored scope name) (shadingColored scope name) :=
  scansAlike_once (fun _ _ => rfl) fun _ => alike_lift_bind fun _ _ => keeps_lift fun _ _ => trivial

/-- Whether a color is visible does not change the detector. -/
theorem keeps_isVisible (color : Rgb Float32) :
    ScansAlike detector (isVisible color) (isVisible color) :=
  fun _ => alike_get_bind fun _ => keeps_pure trivial

section Nested

variable (alike : StreamDetection.Alike detector detect other)
include alike

/-- A pattern is judged alike. -/
theorem alike_patternColored (scope : Scope) (name : String) :
    ScansAlike detector (patternColored detect scope name) (patternColored other scope name) := by
  refine scansAlike_once (fun _ _ => rfl) fun scan => alike_lift_bind fun pattern _ => ?_
  cases pattern with
  | tiling cell paintType =>
      dsimp only
      split
      · refine alike_lift_bind fun content _ => alike_lift_bind fun own _ => ?_
        exact scansAlike_onDetector (alike _ _ _) scan
      · exact keeps_pure trivial
  | shading entries shading location => exact keeps_lift fun _ _ => trivial

/-- A form is judged alike. -/
theorem alike_formColored (scope : Scope) (form : ContentStream) :
    ScansAlike detector (formColored detect scope form) (formColored other scope form) := by
  refine fun scan => alike_lift_bind fun content _ => alike_lift_bind fun own _ => ?_
  exact scansAlike_onDetector (alike _ _ _) scan

/-- An external object is judged alike. -/
theorem alike_xobjectColored (scope : Scope) (name : String) :
    ScansAlike detector (xobjectColored detect scope name) (xobjectColored other scope name) := by
  refine scansAlike_once (fun _ _ => rfl) fun scan => alike_lift_bind fun xobject _ => ?_
  cases xobject with
  | image image => exact alike_get_bind fun _ => keeps_lift fun _ _ => trivial
  | form form => exact alike_formColored alike scope form scan
  | other stream => exact keeps_pure trivial

/-- External objects are judged alike. -/
theorem alike_anyXObjectColored (scope : Scope) (operands : List Object) :
    ScansAlike detector (anyXObjectColored detect scope operands)
      (anyXObjectColored other scope operands) := by
  induction operands with
  | nil => exact fun _ => keeps_pure trivial
  | cons operand rest inductionHypothesis =>
      refine fun scan => alike_lift_bind fun name _ => ?_
      refine (alike_xobjectColored alike scope name scan).bind fun colored after _ => ?_
      cases colored
      · exact inductionHypothesis after
      · exact keeps_pure trivial

/-- An ink is judged alike. -/
theorem alike_inkColored (scope : Scope) (ink : Ink) :
    ScansAlike detector (inkColored detect scope ink) (inkColored other scope ink) := by
  have pattern := alike_patternColored alike scope
  intro scan
  unfold inkColored
  split
  · exact alike_lift_bind fun color _ => keeps_isVisible color scan
  · split
    · refine alike_lift_bind fun color _ => (keeps_isVisible color scan).bind fun visible after _ => ?_
      cases visible
      · exact pattern _ after
      · exact keeps_pure trivial
    · exact pattern _ scan

/-- An operation that the graphics state has followed is judged alike. -/
theorem alike_followedColored (scope : Scope) (operation : Operation) :
    ScansAlike detector (followedColored detect scope operation)
      (followedColored other scope operation) := by
  intro scan
  unfold followedColored
  cases Operator.ofKeyword operation.keyword with
  | saveState | restoreState | setSpace | other => exact keeps_pure trivial
  | setColor slot | setPatternColor slot | setGray slot | setRgb slot | setCmyk slot =>
      exact alike_get_bind fun _ => alike_inkColored alike scope _ scan
  | paintShading => exact alike_lift_bind fun name _ => keeps_shadingColored scope name scan
  | inlineImage =>
      exact alike_get_bind fun _ => alike_lift_bind fun image _ => keeps_lift fun _ _ => trivial
  | paintXObject =>
      dsimp only
      split
      · exact keeps_throw _
      · exact alike_anyXObjectColored alike scope operation.operands scan

/-- Operations are judged alike. -/
theorem alike_anyColored (scope : Scope) (operations : List Operation) :
    ScansAlike detector (anyColored detect scope operations)
      (anyColored other scope operations) := by
  induction operations with
  | nil => exact fun _ => keeps_pure trivial
  | cons operation rest inductionHypothesis =>
      have colored : ScansAlike detector (operationColored detect scope operation)
          (operationColored other scope operation) := by
        refine fun scan => alike_get_bind fun _ => alike_lift_bind fun state _ => ?_
        exact Alike.bind (keeps_modify fun held => held) fun _ after _ =>
          alike_followedColored alike scope operation after
      refine fun scan => (colored scan).bind fun isColored after _ => ?_
      cases isColored
      · exact inductionHypothesis after
      · exact keeps_pure trivial

end Nested

/-- Going through a stream is alike if the scans are. -/
theorem alike_through {first second : Change Scan Bool} (alike : ScansAlike detector first second)
    (state : Detector) :
    Change.Alike (· = detector) (fun _ => True) (through first) (through second) state := by
  intro held
  obtain ⟨same, leaves⟩ := alike ⟨state, default, Table.empty, Table.empty, Table.empty⟩ held
  unfold through
  rw [← same]
  cases atFirst : first ⟨state, default, Table.empty, Table.empty, Table.empty⟩ with
  | ok value after =>
      rw [atFirst] at leaves
      exact ⟨rfl, leaves⟩
  | error fault after =>
      rw [atFirst] at leaves
      exact ⟨rfl, leaves⟩

/-- The search inside a stream, given that through those that it comes to. -/
def search (detect : StreamDetection) (content : Bytes) (scope : Scope) : Change Detector Bool :=
  through do anyColored detect scope (← Content.read content)

/-- Content is searched alike. -/
theorem alike_search (alike : StreamDetection.Alike detector detect other) (content : Bytes)
    (scope : Scope) (state : Detector) :
    Change.Alike (· = detector) (fun _ => True) (search detect content scope)
      (search other content scope) state :=
  alike_through (fun scan => alike_lift_bind fun operations _ =>
    alike_anyColored alike scope operations scan) state

/-- A stream is searched by a detector that is left as it was. -/
theorem keeps_detectStream (depth : Nat) (location : Option ObjectId) (content : Bytes)
    (scope : Scope) (state : Detector) :
    Keeps (· = detector) (fun _ => True) (detectStream depth location content scope) state := by
  refine keeps_of fun held => ?_
  have restores := restores_detectStream depth location content scope
  cases done : detectStream depth location content scope state with
  | ok value after => exact ⟨trivial, (restores.of_ok done).symm.trans held⟩
  | error fault after => exact (restores.of_error done).symm.trans held

/-- The streams that a search goes through: what each of them is stored as, its content, and what
that is read with. -/
def nesting : Nesting (Option ObjectId × Bytes × Scope) Detector Bool where
  location := Prod.fst
  trail := Detector.trail
  limit detector := detector.options.maxNestingDepth
  enter trail detector := { detector with trail := trail }
  walk nested stream :=
    search (fun location content scope => nested (location, content, scope)) stream.2.1 stream.2.2
  run depth stream := detectStream depth stream.1 stream.2.1 stream.2.2

/-- A search enters streams as its trail allows. -/
theorem lawful_nesting : nesting.Lawful where
  trail_enter _ _ := rfl
  limit_enter _ _ := rfl
  barred depth stream detector fault isBarred := by
    have barred : detector.trail.enter detector.options.maxNestingDepth stream.1 = .error fault :=
      isBarred
    refine ⟨detector, ?_⟩
    show inside stream.1 _ detector = _
    unfold inside
    rw [barred]
  entered depth stream detector inside fault isEntered failed := by
    have entered : detector.trail.enter detector.options.maxNestingDepth stream.1 = .ok inside :=
      isEntered
    obtain ⟨left, failed⟩ := failed
    have failedInside : search (detectStream depth) stream.2.1 stream.2.2
        { detector with trail := inside } = .error fault left := failed
    refine ⟨{ left with trail := left.trail.leave }, ?_⟩
    show Detection.inside stream.1 (search _ _ _) detector = _
    unfold Detection.inside
    rw [entered]
    dsimp only
    rw [failedInside]
  calls depth stream detector other reached comes := by
    have held : reached = detector := by
      refine comes.holds
        (fun index state => keeps_detectStream depth index.1 index.2.1 index.2.2 state) ?_
      intro nested alike
      exact (alike_search (fun location content scope state => alike (location, content, scope) state)
        stream.2.1 stream.2.2 detector rfl).1
    rw [held]
    exact ⟨rfl, rfl⟩

/-- Content is searched below an exact and balanced guard. -/
theorem isExact_containsColor (content : Bytes) (scope : Scope) (detector : Detector)
    (sound : detector.trail.IsSound detector.options.maxNestingDepth) :
    nesting.IsExact (none, content, scope) detector (containsColor content scope) := by
  refine lawful_nesting.isExact sound ?_ fun fault failed => fails_get_bind failed
  rw [containsColor, outcome_get_bind]
  exact (congrArg Detector.trail (restores_detectStream _ none content scope detector)).symm

end Detection

end Monochrome
