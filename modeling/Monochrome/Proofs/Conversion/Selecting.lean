import Monochrome.Conversion.Document
import Monochrome.Proofs.Conversion.Repeating
import Monochrome.Proofs.Mirroring

/-!
# Pattern spaces that a page selects

In the course of its conversion a page selects pattern spaces by name: its content does, and so do
the forms that it paints and the cells of its patterns, each in the scope in which it is converted.
Below, what a conversion selects is told along its recursion, for streams nested to any depth.  A
selection still tells what a converter remembers of its place if the name is read as that space, and
making the space gray changes nothing.
-/

namespace Monochrome

/-- A color space that is looked up by a name, in the scope of that moment. -/
structure Selection where
  scope : Scope
  name : String

/-- Whether a selected name holds what is remembered of its place, if anything is.  As a space that
is remembered was made gray, it can only be one that was over gray before. -/
def Selection.StillTells (selection : Selection)
    (remembered : Table EntryLocation (ColorSpace Float32 Float)) : Prop :=
  ∀ location former,
    selection.scope.location? .colorSpace selection.name = .ok (some location) →
    remembered.find? location = some former →
    former = .patternOver .deviceGray ∧
      ∃ entry, selection.scope.lookup? .colorSpace selection.name = .ok (some entry) ∧
        entry.value = grayPatternSpace

/-- Whether a selection still tells what is remembered, by looking the name up. -/
def Selection.tells (selection : Selection)
    (remembered : Table EntryLocation (ColorSpace Float32 Float)) : Bool :=
  match selection.scope.location? .colorSpace selection.name with
  | .ok (some location) =>
    match remembered.find? location with
    | none => true
    | some (.patternOver .deviceGray) =>
      match selection.scope.lookup? .colorSpace selection.name with
      | .ok (some entry) => entry.value.isGrayPatternSpace
      | _ => false
    | some _ => false
  | _ => true

/-- Looking the name up decides whether a selection still tells what is remembered. -/
theorem Selection.tells_iff {selection : Selection}
    {remembered : Table EntryLocation (ColorSpace Float32 Float)} :
    selection.tells remembered = true ↔ selection.StillTells remembered := by
  constructor
  · intro tells location former located found
    simp only [Selection.tells, located, found] at tells
    split at tells
    · contradiction
    · rename_i isFormer
      obtain rfl := Option.some.inj isFormer
      split at tells
      · rename_i entry looked
        exact ⟨rfl, entry, looked, Object.isGrayPatternSpace_iff.1 tells⟩
      · contradiction
    · contradiction
  · intro stillTells
    unfold Selection.tells
    split
    · rename_i location located
      cases found : remembered.find? location with
      | none => rfl
      | some former =>
          obtain ⟨rfl, entry, looked, isGray⟩ := stillTells location former located found
          simp only [looked]
          exact Object.isGrayPatternSpace_iff.2 isGray
    · rfl

instance (selection : Selection) (remembered : Table EntryLocation (ColorSpace Float32 Float)) :
    Decidable (selection.StillTells remembered) :=
  decidable_of_iff _ Selection.tells_iff

/-- Where nothing is remembered, every selection still tells it. -/
theorem Selection.stillTells_of_forall_none {selection : Selection}
    {remembered : Table EntryLocation (ColorSpace Float32 Float)}
    (nothing : ∀ location, remembered.find? location = none) : selection.StillTells remembered := by
  intro location former _ found
  simp [nothing] at found

/-- The walk that has noted and counted an external object. -/
def Walk.noteXObject (walk : Walk) (name : String) : Walk :=
  let counts := walk.converter.statistics
  let counts := { counts with xobjectsProcessed := counts.xobjectsProcessed + 1 }
  { walk with
    xobjects := walk.xobjects.insert name
    converter := { walk.converter with statistics := counts } }

/-- Whether a set of names is empty or has a single name. -/
def Names.HasOnly (names : Names) (name : String) : Prop :=
  names.toList = [] ∨ names.toList = [name]

/-- The name that alone may be in a set is inserted. -/
theorem Names.HasOnly.insert {names : Names} {name : String} (hasOnly : names.HasOnly name) :
    (names.insert name).HasOnly name := by
  rcases hasOnly with none | one
  · simp [HasOnly, Names.insert, none, insertIn]
  · simp [HasOnly, Names.insert, one, insertIn]

/-- Whether an operation does nothing but save or restore the graphics state, or select the color
space with a name. -/
def Operation.onlySelects (name : String) (operation : Operation) : Bool :=
  match Operator.ofKeyword operation.keyword with
  | .saveState | .restoreState => true
  | .setSpace _ =>
    (Operands.singleName operation.keyword operation.operands).toOption = some name
  | _ => false

/-- An operation that selects a color space, and only the one with a name, is given that name. -/
theorem Operation.singleName_of_onlySelects {operation : Operation} {name : String} {slot : Slot}
    (only : operation.onlySelects name = true)
    (isSpace : Operator.ofKeyword operation.keyword = .setSpace slot) :
    Operands.singleName operation.keyword operation.operands = .ok name := by
  simp only [onlySelects, isSpace, decide_eq_true_eq] at only
  cases named : Operands.singleName operation.keyword operation.operands with
  | ok other => simpa [named, Except.toOption] using only
  | error fault => simp [named, Except.toOption] at only

namespace Conversion
open Change

/-- What the conversion of a stream selects. -/
abbrev StreamSelection :=
  Option ObjectId → Bytes → Scene → Selection → Prop

section Selecting

variable (convert : StreamConversion) (selects : StreamSelection)

/-- Whether a selection is made when a stream is converted, or when the pattern spaces that it
selected become gray. -/
def OwnSelects (location : Option ObjectId) (content : Bytes) (scene : Scene)
    (selection : Selection) : Prop :=
  selects location content scene selection ∨
    ∃ bytes names left, convert location content scene = .ok (bytes, names) left ∧
      Happens convertPatternSpace (fun name scene => selection = ⟨scene.scope, name⟩)
        names.toList left

/-- Whether a selection is made when a pattern is converted: by a cell that sets its own colors. -/
def PatternSelects (pattern : Pattern) (job : Job) (selection : Selection) : Prop :=
  ∃ cell paintType content own, pattern = .tiling cell paintType ∧
    Pattern.setsColors paintType = true ∧ cell.content job.document = .ok content ∧
    cell.resources? job.document = .ok own ∧
    OwnSelects convert selects cell.location content ⟨job, own.getD default⟩ selection

/-- Whether a selection is made when the pattern with a name is converted. -/
def NamedPatternSelects (name : String) (walk : Walk) (selection : Selection) : Prop :=
  walk.patterns.contains name = false ∧ ∃ pattern, walk.scope.pattern name = .ok pattern ∧
    PatternSelects convert selects pattern walk.toJob selection

/-- Whether a selection is made when a form is converted.  Without resources it is under those of
the stream that paints it, which takes care of what it selected. -/
def FormSelects (form : ContentStream) (walk : Walk) (selection : Selection) : Prop :=
  ∃ content, form.content walk.document = .ok content ∧
    ((∃ own, form.resources? walk.document = .ok (some own) ∧
        OwnSelects convert selects form.location content ⟨walk.toJob, own⟩ selection) ∨
      form.resources? walk.document = .ok none ∧
        selects form.location content walk.toScene selection)

/-- Whether a selection is made when the external object with a name is converted: by a form. -/
def NamedXObjectSelects (name : String) (walk : Walk) (selection : Selection) : Prop :=
  walk.xobjects.contains name = false ∧
    ∃ form, walk.scope.xobject name = .ok (.form form) ∧
      FormSelects convert selects form (walk.noteXObject name) selection

/-- Whether a selection is made when the external objects that operands name are converted. -/
def XObjectsSelect (operands : List Object) (walk : Walk) (selection : Selection) : Prop :=
  Happens (fun operand => do convertNamedXObject convert (← Operands.nameOf "Do" operand))
    (fun operand walk => ∃ name, Operands.nameOf "Do" operand = .ok name ∧
      NamedXObjectSelects convert selects name walk selection) operands walk

/-- Whether a selection is made when an operation is converted that the graphics state has followed:
by the operation, if it selects a named pattern space, or by what it paints with. -/
def FollowedSelects (operation : Operation) (walk : Walk) (selection : Selection) : Prop :=
  match Operator.ofKeyword operation.keyword with
  | .setSpace slot =>
    (walk.state.ink slot).space.isPattern = true ∧ selection.name ≠ "Pattern" ∧
      Operands.singleName operation.keyword operation.operands = .ok selection.name ∧
      selection.scope = walk.scope
  | .setColor slot | .setPatternColor slot =>
    ∃ name underlying, (walk.state.ink slot).color = .pattern name underlying ∧
      NamedPatternSelects convert selects name walk selection
  | .paintXObject => XObjectsSelect convert selects operation.operands walk selection
  | _ => False

/-- Whether a selection is made when an operation is converted. -/
def OperationSelects (operation : Operation) (walk : Walk) (selection : Selection) : Prop :=
  ∃ state, walk.state.follow walk.scope operation = .ok state ∧
    FollowedSelects convert selects operation { walk with state := state } selection

end Selecting

/-- Whether a selection is made when a stream is converted in which streams are nested to less than
the given depth. -/
def StreamSelects : Nat → StreamSelection
  | 0, _, _, _, _ => False
  | depth + 1, location, content, scene, selection =>
    ∃ start operations, entering location scene = .ok start ∧
      Content.read content = .ok operations ∧
      Happens (convertOperation (convertStream depth))
        (fun operation walk =>
          OperationSelects (convertStream depth) (StreamSelects depth) operation walk selection)
        operations start

/-- Whether a selection is made when the content of a page is converted. -/
def ContentSelects (content : Bytes) (scene : Scene) (selection : Selection) : Prop :=
  OwnSelects (streamConversion scene.converter)
    (StreamSelects (Trail.levels scene.converter.options.maxNestingDepth)) none content scene
    selection

/-- Whether a selection is made when a page is converted. -/
def PageSelects (page : ObjectId) (job : Job) (selection : Selection) : Prop :=
  ∃ content resources taken, job.document.pageContent page = .ok content ∧
    Job.onDocument (Resources.takeFromPage page) job = .ok resources taken ∧
    ContentSelects content ⟨taken, resources⟩ selection

/-- Whether every selection that one of the pages makes, when it is converted after those before it,
still tells what is remembered of its place. -/
def PagesStillTell (pages : List ObjectId) (job : Job) : Prop :=
  ∀ before page after middle, pages = before ++ page :: after →
    before.forM convertPage job = .ok ⟨⟩ middle →
    ∀ selection, PageSelects page middle selection →
      selection.StillTells middle.converter.formerSpaces

section OnlySelecting

variable {convert : StreamConversion} {selects : StreamSelection} {name : String}
  {operation converted : Operation} {walk next : Walk} {selection : Selection}

/-- An operation that only selects the space with a name makes no other selection. -/
theorem eq_of_operationSelects (only : operation.onlySelects name = true)
    (selected : OperationSelects convert selects operation walk selection) :
    selection = ⟨walk.scope, name⟩ := by
  obtain ⟨state, _, selected⟩ := selected
  unfold FollowedSelects at selected
  cases isOperator : Operator.ofKeyword operation.keyword with
  | setSpace slot =>
      simp only [isOperator] at selected
      obtain ⟨_, _, named, isScope⟩ := selected
      rw [Operation.singleName_of_onlySelects only isOperator] at named
      obtain ⟨scope, other⟩ := selection
      obtain rfl := Except.ok.inj named
      exact congrArg (Selection.mk · name) isScope
  | _ => simp [Operation.onlySelects, isOperator] at only selected

/-- An operation that only selects the space with a name leaves the scope as it is, and notes no
other name. -/
theorem scope_of_onlySelects (only : operation.onlySelects name = true)
    (done : convertOperation convert operation walk = .ok converted next) :
    next.scope = walk.scope ∧
      (walk.patternSpaces.HasOnly name → next.patternSpaces.HasOnly name) := by
  obtain ⟨state, _, done⟩ := convertOperation_eq_ok.1 done
  unfold convertFollowed at done
  cases isOperator : Operator.ofKeyword operation.keyword with
  | saveState | restoreState =>
      simp only [isOperator, pure_eq_ok] at done
      obtain ⟨_, rfl⟩ := done
      exact ⟨rfl, id⟩
  | setSpace slot =>
      have named := Operation.singleName_of_onlySelects only isOperator
      simp only [isOperator, convertSpace, bind_eq_ok, get_eq_ok] at done
      obtain ⟨_, _, ⟨rfl, rfl⟩, done⟩ := done
      split at done
      · simp only [named, bind_eq_ok, lift_eq_ok] at done
        obtain ⟨_, _, ⟨⟨⟩, rfl⟩, done⟩ := done
        split at done
        · simp only [noteSpace, bind_eq_ok, get_eq_ok, lift_eq_ok, pure_eq_ok] at done
          obtain ⟨_, after, ⟨_, _, ⟨rfl, rfl⟩, former, _, ⟨_, rfl⟩, noted⟩, _, rfl⟩ := done
          have known : after.scope = walk.scope ∧
              after.patternSpaces = walk.patternSpaces.insert name := by
            cases former <;> cases noted <;> exact ⟨rfl, rfl⟩
          exact ⟨known.1, fun hasOnly => known.2 ▸ hasOnly.insert⟩
        · obtain ⟨_, rfl⟩ := pure_eq_ok.1 done
          exact ⟨rfl, id⟩
      · cases done
        exact ⟨rfl, id⟩
  | _ => simp [Operation.onlySelects, isOperator] at only

/-- Operations that only select the space with a name make no other selection. -/
theorem eq_of_happens {operations : List Operation}
    (only : ∀ operation ∈ operations, operation.onlySelects name = true)
    (happens : Happens (convertOperation convert) (fun operation walk =>
      OperationSelects convert selects operation walk selection) operations walk) :
    selection = ⟨walk.scope, name⟩ := by
  induction operations generalizing walk with
  | nil => exact happens.elim
  | cons first rest inductionHypothesis =>
      obtain ⟨onlyFirst, onlyRest⟩ := List.forall_mem_cons.1 only
      rcases happens with selected | ⟨value, next, atFirst, happens⟩
      · exact eq_of_operationSelects onlyFirst selected
      · rw [← (scope_of_onlySelects onlyFirst atFirst).1]
        exact inductionHypothesis onlyRest happens

/-- Operations that only select the space with a name leave the scope as it is, and note no other
name. -/
theorem scope_of_mapM {operations replacements : List Operation} {finish : Walk}
    (only : ∀ operation ∈ operations, operation.onlySelects name = true)
    (done : operations.mapM (convertOperation convert) walk = .ok replacements finish)
    (hasOnly : walk.patternSpaces.HasOnly name) :
    finish.scope = walk.scope ∧ finish.patternSpaces.HasOnly name := by
  induction operations generalizing walk replacements with
  | nil =>
      rw [List.mapM_nil, pure_eq_ok] at done
      obtain ⟨_, rfl⟩ := done
      exact ⟨rfl, hasOnly⟩
  | cons first rest inductionHypothesis =>
      obtain ⟨onlyFirst, onlyRest⟩ := List.forall_mem_cons.1 only
      obtain ⟨value, next, others, atFirst, atRest, rfl⟩ := mapM_cons_eq_ok.1 done
      obtain ⟨sameScope, stays⟩ := scope_of_onlySelects onlyFirst atFirst
      rw [← sameScope]
      exact inductionHypothesis onlyRest atRest (stays hasOnly)

/-- Content that only selects the space with a name makes no other selection, and makes it in the
scope in which it is converted. -/
theorem eq_of_contentSelects {content : Bytes} {operations : List Operation} {scene : Scene}
    (read : Content.read content = .ok operations)
    (only : ∀ operation ∈ operations, operation.onlySelects name = true)
    (selected : ContentSelects content scene selection) : selection = ⟨scene.scope, name⟩ := by
  rcases selected with
    ⟨start, others, entered, again, happens⟩ | ⟨bytes, names, left, converts, happens⟩
  · obtain rfl := Except.ok.inj (read.symm.trans again)
    simp only [entering, Outcome.bind_eq_ok, Outcome.pure_eq_ok] at entered
    obtain ⟨trail, _, rfl⟩ := entered
    exact eq_of_happens only happens
  · obtain ⟨start, others, replacements, finish, entered, again, mapped, _, rfl, sameScope, _⟩ :=
      convertStream_eq_ok converts
    obtain rfl := Except.ok.inj (read.symm.trans again)
    simp only [entering, Outcome.bind_eq_ok, Outcome.pure_eq_ok] at entered
    obtain ⟨trail, _, rfl⟩ := entered
    obtain ⟨stays, none | one⟩ := scope_of_mapM only mapped (Or.inl rfl)
    · rw [none] at happens
      exact happens.elim
    · rw [one] at happens
      rcases happens with rfl | ⟨_, _, _, none⟩
      · rw [sameScope, stays]
        rfl
      · exact none.elim

end OnlySelecting

end Conversion
end Monochrome
