import Mathlib.Data.List.Flatten
import Monochrome.Proofs.Conversion.Following

/-!
# Gray content replayed

The content that a conversion writes is read by a graphics state of its own, in the document as the
conversion leaves it.  Step by step this state shows what the state of the walk holds: gray for a
space that is no pattern space, and the same pattern for a pattern.  It follows as far as the
pattern spaces that are selected by name can still be read.
-/

namespace Monochrome

/-- What a color in a pattern space is shown as. -/
inductive Color.ShowsAs : Color Float32 → Color Float32 → Prop
  /-- No pattern has been selected. -/
  | unset : ShowsAs (.components []) (.components [])
  /-- The same pattern, with no color under it. -/
  | alone (name : String) : ShowsAs (.pattern name none) (.pattern name none)
  /-- The same pattern, over one component. -/
  | overLevel (name : String) (values : List Float32) (level : Float32) :
      ShowsAs (.pattern name (some values)) (.pattern name (some [level]))

/-- What an ink is shown as. -/
inductive Ink.ShowsAs : Ink → Ink → Prop
  /-- Gray with one component for a space that is no pattern space. -/
  | plain (original : Ink) (level : Float32) (plain : original.space.isPattern = false) :
      ShowsAs original ⟨.deviceGray, .components [level]⟩
  /-- A pattern space for a pattern space. -/
  | pattern (original gray : Ink)
      (isPattern : original.space.isPattern = true) (staysPattern : gray.space.isPattern = true)
      (color : original.color.ShowsAs gray.color) :
      ShowsAs original gray

/-- Whether the colors of both slots are related. -/
def Inks.Related (relation : Ink → Ink → Prop) (original gray : Inks) : Prop :=
  ∀ slot, relation (original.get slot) (gray.get slot)

/-- Whether the current and all saved colors are related; as many are saved. -/
structure GraphicsState.Related (relation : Ink → Ink → Prop) (original gray : GraphicsState) :
    Prop where
  current : original.current.Related relation gray.current
  saved : List.Forall₂ (Inks.Related relation) original.saved gray.saved

/-- Whether the current and all saved colors are shown as others. -/
def GraphicsState.ShowsAs (original gray : GraphicsState) : Prop :=
  original.Related Ink.ShowsAs gray

/-- Whether a name is that of a pattern space. -/
def Scope.ReadsPattern (scope : Scope) (name : String) : Prop :=
  ∃ space, scope.colorSpace name = .ok space ∧ space.isPattern = true

namespace GraphicsState

variable {original gray moved : GraphicsState} {scope : Scope} {operation : Operation}

section Related

variable {relation : Ink → Ink → Prop}

/-- States stay related when the same slot is set to related colors. -/
theorem Related.setInk (related : original.Related relation gray) (slot : Slot) {ink shown : Ink}
    (inkRelated : relation ink shown) :
    (original.setInk slot ink).Related relation (gray.setInk slot shown) where
  current := by
    intro other
    cases slot <;> cases other
    · exact inkRelated
    · exact related.current .fill
    · exact related.current .stroke
    · exact inkRelated
  saved := related.saved

/-- States stay related when both are saved. -/
theorem Related.save (related : original.Related relation gray) :
    original.save.Related relation gray.save where
  current := related.current
  saved := .cons related.current related.saved

/-- States stay related when both are restored. -/
theorem Related.restore (related : original.Related relation gray) :
    original.restore.Related relation gray.restore := by
  obtain ⟨current, saved⟩ := original
  obtain ⟨grayCurrent, graySaved⟩ := gray
  cases related.saved with
  | nil => exact related
  | cons inks others => exact ⟨inks, others⟩

end Related

/-- The first color is shown as itself. -/
theorem showsAs_default : (default : GraphicsState).ShowsAs default where
  current slot := by
    cases slot <;> exact .plain _ 0.0 rfl
  saved := .nil

/-- The current space of a slot that is no pattern space is shown as gray. -/
theorem ShowsAs.space_of_plain (shows : original.ShowsAs gray) {slot : Slot}
    (plain : (original.ink slot).space.isPattern = false) : (gray.ink slot).space = .deviceGray := by
  have inkShows : (original.ink slot).ShowsAs (gray.ink slot) := shows.current slot
  generalize original.ink slot = ink at plain inkShows
  generalize gray.ink slot = shown at inkShows
  cases inkShows with
  | plain => rfl
  | pattern _ isPattern => rw [plain] at isPattern; cases isPattern

/-- The current space of a slot that is a pattern space is shown as one. -/
theorem ShowsAs.space_of_pattern (shows : original.ShowsAs gray) {slot : Slot}
    (pattern : (original.ink slot).space.isPattern = true) :
    (gray.ink slot).space.isPattern = true := by
  have inkShows : (original.ink slot).ShowsAs (gray.ink slot) := shows.current slot
  generalize original.ink slot = ink at pattern inkShows
  generalize gray.ink slot = shown at inkShows
  cases inkShows with
  | plain _ plain => rw [plain] at pattern; cases pattern
  | pattern _ _ staysPattern => exact staysPattern

/-- The state after an operation that is read from content. -/
def follow (scope : Scope) (state : GraphicsState) (operation : Operation) :
    Outcome GraphicsState :=
  state.apply scope (Operator.ofKeyword operation.keyword) operation.operands

/-- The state after operations that are followed from the beginning. -/
def replay (scope : Scope) (operations : List Operation) : Outcome GraphicsState :=
  operations.foldlM (follow scope) default

/-- One number is a color of gray. -/
theorem plainColor_gray {operand : Object} {level : Float32} (keyword : String)
    (number : operand.number? = some level) :
    plainColor .deviceGray keyword [operand] = .ok (.components [level]) := by
  have numbers : Operands.numbers keyword [operand] = .ok [level] :=
    Operands.numbers_eq_ok.2 (.cons number .nil)
  rw [plainColor, numbers]
  rfl

/-- An operator that sets a slot changes only that one. -/
theorem follow_eq_ok {slot : Slot} (state : GraphicsState)
    (setsSlot : (Operator.ofKeyword operation.keyword).slot? = some slot) {ink : Ink}
    (changed : inkAfter scope (state.ink slot) (Operator.ofKeyword operation.keyword)
      operation.operands = .ok ink) :
    state.follow scope operation = .ok (state.setInk slot ink) := by
  unfold follow apply
  cases isOperator : Operator.ofKeyword operation.keyword with
  | _ => simp_all [Operator.slot?, pure, Except.pure, bind, Except.bind]

/-- A gray level that is set in the selected space is a color of it, if that is gray. -/
theorem follow_level {slot : Slot} (state : GraphicsState) {operand : Object} {level : Float32}
    (isColor : Operator.ofKeyword operation.keyword = .setColor slot ∨
      Operator.ofKeyword operation.keyword = .setPatternColor slot)
    (operands : operation.operands = [operand])
    (number : operand.number? = some level)
    (gray : (state.ink slot).space = .deviceGray) :
    state.follow scope operation =
      .ok (state.setInk slot ⟨.deviceGray, .components [level]⟩) := by
  rcases isColor with isColor | isColor <;>
    refine follow_eq_ok state (by rw [isColor]; rfl) ?_ <;>
    simp [inkAfter, isColor, operands, gray, ColorSpace.isPattern, plainColor_gray _ number, pure,
      Except.pure, bind, Except.bind]

/-- A space that is selected has its first color. -/
theorem follow_space {slot : Slot} (state : GraphicsState) {space : ColorSpace Float32 Float}
    (isSpace : Operator.ofKeyword operation.keyword = .setSpace slot)
    (selected : ∀ keyword, namedSpace scope keyword operation.operands = .ok space) :
    state.follow scope operation = .ok (state.setInk slot (.initial space)) := by
  refine follow_eq_ok state (by rw [isSpace]; rfl) ?_
  simp [inkAfter, isSpace, selected, pure, Except.pure, bind, Except.bind]

/-- The name of gray selects gray. -/
theorem follow_deviceGray {slot : Slot} (state : GraphicsState)
    (isSpace : Operator.ofKeyword operation.keyword = .setSpace slot)
    (operands : operation.operands = [.named "DeviceGray"]) :
    state.follow scope operation = .ok (state.setInk slot (.initial .deviceGray)) := by
  refine follow_space state isSpace fun keyword => ?_
  simp [namedSpace, Operands.singleName_eq_ok.2 ⟨_, operands, Conversion.text?_deviceGray⟩,
    ColorSpace.ofName?, pure, Except.pure, bind, Except.bind]

/-- A gray level that is set with its space is a color of gray. -/
theorem follow_deviceLevel {slot : Slot} (state : GraphicsState) {operand : Object} {level : Float32}
    (isGray : Operator.ofKeyword operation.keyword = .setGray slot)
    (operands : operation.operands = [operand]) (number : operand.number? = some level) :
    state.follow scope operation =
      .ok (state.setInk slot ⟨.deviceGray, .components [level]⟩) := by
  have count (keyword : String) : Operands.expectCount keyword [operand] 1 = .ok () :=
    Operands.expectCount_eq_ok.2 rfl
  refine follow_eq_ok state (by rw [isGray]; rfl) ?_
  simp [inkAfter, isGray, operands, deviceInk, ColorSpace.componentCount, count,
    plainColor_gray _ number, pure, Except.pure, bind, Except.bind]

/-- A name that only the resources know is looked up there; the name of patterns is its own. -/
theorem namedSpace_of_ownName {name : String} {space : ColorSpace Float32 Float}
    (named : Operands.singleName operation.keyword operation.operands = .ok name)
    (known : (name = "Pattern" ∧ space = .pattern) ∨
      (ColorSpace.ofName? name : Option (ColorSpace Float32 Float)) = none ∧
        scope.colorSpace name = .ok space) (keyword : String) :
    namedSpace scope keyword operation.operands = .ok space := by
  have same : Operands.singleName keyword operation.operands = .ok name :=
    Operands.singleName_eq_ok.2 (Operands.singleName_eq_ok.1 named)
  rcases known with ⟨rfl, rfl⟩ | ⟨own, found⟩
  · simp [namedSpace, same, ColorSpace.ofName?, pure, Except.pure, bind, Except.bind]
  · simp [namedSpace, same, own, found, bind, Except.bind]

/-- An operation that selects a space by a name of its own looks it up in the resources. -/
theorem follow_space_eq_ok {slot : Slot} {state after : GraphicsState} {name : String}
    (isSpace : Operator.ofKeyword operation.keyword = .setSpace slot)
    (named : Operands.singleName operation.keyword operation.operands = .ok name)
    (own : (ColorSpace.ofName? name : Option (ColorSpace Float32 Float)) = none)
    (done : state.follow scope operation = .ok after) :
    ∃ space, scope.colorSpace name = .ok space ∧ after = state.setInk slot (.initial space) := by
  have same (keyword : String) : Operands.singleName keyword operation.operands = .ok name :=
    Operands.singleName_eq_ok.2 (Operands.singleName_eq_ok.1 named)
  simp only [GraphicsState.follow, apply, isSpace, Operator.slot?, inkAfter, namedSpace, same,
    Outcome.bind_eq_ok, Outcome.pure_eq_ok, Except.ok.injEq] at done
  obtain ⟨_, ⟨space, ⟨_, rfl, found⟩, rfl⟩, rfl⟩ := done
  rw [own] at found
  exact ⟨space, found, rfl⟩

/-- A pattern that is set alone in a pattern space is selected. -/
theorem patternColor_alone (keyword name : String) :
    patternColor keyword [.name (Text.toBytes name)] = .ok (.pattern name none) := by
  simp [patternColor, Operands.nameOf, Object.text?, Text.ofBytes_toBytes, pure, Except.pure, bind,
    Except.bind]

/-- A pattern that is set behind a number in a pattern space is selected over that component. -/
theorem patternColor_over (keyword name : String) {operand : Object} {level : Float32}
    (number : operand.number? = some level) :
    patternColor keyword [operand, .name (Text.toBytes name)] =
      .ok (.pattern name (some [level])) := by
  have numbers : Operands.numbers keyword [operand] = .ok [level] :=
    Operands.numbers_eq_ok.2 (.cons number .nil)
  simp [patternColor, Operands.nameOf, Object.text?, Text.ofBytes_toBytes, numbers, pure,
    Except.pure, bind, Except.bind]

/-- A pattern that is set in a pattern space is the color of it. -/
theorem follow_pattern {slot : Slot} (state : GraphicsState) {color : Color Float32}
    (isColor : Operator.ofKeyword operation.keyword = .setPatternColor slot)
    (pattern : (state.ink slot).space.isPattern = true)
    (selected : ∀ keyword, patternColor keyword operation.operands = .ok color) :
    state.follow scope operation =
      .ok (state.setInk slot { state.ink slot with color := color }) := by
  refine follow_eq_ok state (by rw [isColor]; rfl) ?_
  simp [inkAfter, isColor, pattern, selected, pure, Except.pure, bind, Except.bind]

/-- What a walk does to its graphics state is shown by what the operation in gray does, if the name
that it selects, if any, is that of a pattern space. -/
theorem ShowsAs.follow {noted : List String} (shows : original.ShowsAs gray)
    (step : GrayStep noted original operation moved)
    (readable : ∀ name, operation.Selects name → scope.ReadsPattern name) :
    ∃ after, gray.follow scope operation = .ok after ∧ moved.ShowsAs after := by
  cases step with
  | save _ isSave =>
      exact ⟨gray.save, by simp [GraphicsState.follow, apply, isSave], Related.save shows⟩
  | restore _ isRestore =>
      exact ⟨gray.restore, by simp [GraphicsState.follow, apply, isRestore], Related.restore shows⟩
  | use _ isUse =>
      refine ⟨gray, ?_, shows⟩
      rcases isUse with isUse | isUse | isUse <;>
        simp [GraphicsState.follow, apply, isUse, Operator.slot?]
  | image image => exact ⟨gray, rfl, shows⟩
  | plainSpace _ slot ink isSpace operands plain =>
      exact ⟨_, follow_deviceGray gray isSpace operands,
        Related.setInk shows slot (.plain ink 0.0 plain)⟩
  | patternSpace _ slot ink name isSpace named ownName pattern unset =>
      obtain ⟨space, known, isPattern⟩ : ∃ space : ColorSpace Float32 Float,
          ((name = "Pattern" ∧ space = .pattern) ∨
            (ColorSpace.ofName? name : Option (ColorSpace Float32 Float)) = none ∧
              scope.colorSpace name = .ok space) ∧ space.isPattern = true := by
        rcases ownName with atPattern | ⟨own, _⟩
        · exact ⟨.pattern, Or.inl ⟨atPattern, rfl⟩, rfl⟩
        · obtain ⟨space, found, isPattern⟩ := readable name ⟨⟨slot, isSpace⟩, named, own⟩
          exact ⟨space, Or.inr ⟨own, found⟩, isPattern⟩
      refine ⟨_, follow_space gray isSpace (namedSpace_of_ownName named known),
        Related.setInk shows slot (.pattern ink _ pattern isPattern ?_)⟩
      rw [unset, Conversion.color_initial isPattern]
      exact .unset
  | deviceLevel _ slot ink operand level isGray operands number plain =>
      exact ⟨_, follow_deviceLevel gray isGray operands number,
        Related.setInk shows slot (.plain ink level plain)⟩
  | level _ slot color operand level isColor operands number plain =>
      exact ⟨_, follow_level gray isColor operands number (shows.space_of_plain plain),
        Related.setInk shows slot (.plain _ level plain)⟩
  | pattern _ slot name isColor operands pattern =>
      have isPattern := shows.space_of_pattern pattern
      have selected (keyword : String) :
          patternColor keyword operation.operands = .ok (.pattern name none) := by
        rw [operands, patternColor_alone]
      exact ⟨_, follow_pattern gray isColor isPattern selected,
        Related.setInk shows slot (.pattern _ _ pattern isPattern (.alone name))⟩
  | patternOver _ slot name values operand level isColor operands number pattern =>
      have isPattern := shows.space_of_pattern pattern
      have selected (keyword : String) :
          patternColor keyword operation.operands = .ok (.pattern name (some [level])) := by
        rw [operands, patternColor_over keyword name number]
      exact ⟨_, follow_pattern gray isColor isPattern selected,
        Related.setInk shows slot (.pattern _ _ pattern isPattern (.overLevel name values level))⟩

/-- What a run of operations does to the graphics state of a walk is shown by their replay, if the
names that they select, if any, are those of pattern spaces. -/
theorem ShowsAs.replay {operations : List Operation} (shows : original.ShowsAs gray)
    (run : GrayRun original operations moved)
    (readable : ∀ operation ∈ operations, ∀ name, operation.Selects name →
      scope.ReadsPattern name) :
    ∃ after, operations.foldlM (GraphicsState.follow scope) gray = .ok after ∧
      moved.ShowsAs after := by
  induction run generalizing gray with
  | done => exact ⟨gray, rfl, shows⟩
  | step first rest inductionHypothesis =>
      obtain ⟨next, followed, showsNext⟩ := shows.follow first (readable _ (by simp))
      obtain ⟨after, replayed, showsAfter⟩ := inductionHypothesis showsNext
        fun operation inRest => readable operation (by simp [inRest])
      refine ⟨after, ?_, showsAfter⟩
      rw [List.foldlM_cons, followed]
      exact replayed

/-- Operations are followed one after the other. -/
theorem replay_append_singleton (scope : Scope) (operations : List Operation)
    (operation : Operation) :
    replay scope (operations ++ [operation]) =
      (do (← replay scope operations).follow scope operation) := by
  rw [replay, List.foldlM_append]
  congr 1
  funext state
  simp

end GraphicsState

namespace Conversion
open Change

variable {convert : StreamConversion} {walk after : Walk}
variable {operations converted : List Operation}

/-- A whole run of a walk moves its graphics state as its operations in gray do. -/
theorem grayRun_mapM (remembers : convert.Remembers)
    (patterns : walk.converter.RemembersPatterns)
    (done : operations.mapM (convertOperation convert) walk = .ok converted after) :
    GrayRun walk.state converted after.state := by
  induction operations generalizing walk converted with
  | nil =>
      rw [List.mapM_nil, pure_eq_ok] at done
      obtain ⟨rfl, rfl⟩ := done
      exact .done _
  | cons operation rest inductionHypothesis =>
      obtain ⟨first, middle, others, atFirst, atRest, rfl⟩ := mapM_cons_eq_ok.1 done
      obtain ⟨step, keeps⟩ := grayStep_convertOperation remembers patterns atFirst
      exact .step step (inductionHypothesis (patterns.of_more keeps.remembers) atRest)

/-- A run of a walk notes every name by which its operations in gray select a space. -/
theorem noted_of_selects (remembers : convert.Remembers)
    (patterns : walk.converter.RemembersPatterns)
    (done : operations.mapM (convertOperation convert) walk = .ok converted after)
    {operation : Operation} (isConverted : operation ∈ converted) {name : String}
    (selects : operation.Selects name) :
    name ∈ after.patternSpaces.toList := by
  suffices noted : walk.Keeps after ∧
      ∀ operation ∈ converted, operation.Selects name → name ∈ after.patternSpaces.toList from
    noted.2 operation isConverted selects
  clear isConverted selects operation
  induction operations generalizing walk converted with
  | nil =>
      rw [List.mapM_nil, pure_eq_ok] at done
      obtain ⟨rfl, rfl⟩ := done
      exact ⟨refl_of _ _, by simp⟩
  | cons operation rest inductionHypothesis =>
      obtain ⟨first, middle, others, atFirst, atRest, rfl⟩ := mapM_cons_eq_ok.1 done
      obtain ⟨step, keeps⟩ := grayStep_convertOperation remembers patterns atFirst
      obtain ⟨keepsRest, noted⟩ :=
        inductionHypothesis (patterns.of_more keeps.remembers) atRest
      refine ⟨trans_of _ keeps keepsRest, ?_⟩
      intro operation isConverted selects
      rcases List.mem_cons.1 isConverted with rfl | later
      · exact keepsRest.names (step.of_selects selects).1
      · exact noted operation later selects

/-- Whether after every prefix of operations in gray the replay of the prefix shows the state of
the walk that converted as many operations. -/
def ReplayShows (convert : StreamConversion) (start : Walk) (operations converted : List Operation)
    (scope : Scope) : Prop :=
  ∀ count, ∃ walk gray,
    (operations.take count).mapM (convertOperation convert) start =
      .ok (converted.take count) walk ∧
    GraphicsState.replay scope (converted.take count) = .ok gray ∧ walk.state.ShowsAs gray

/-- A name by which an operation of a replay selects a space is that of a pattern space, if the
replay shows the state of the walk. -/
theorem readsPattern_of_replayShows (remembers : convert.Remembers)
    (patterns : walk.converter.RemembersPatterns) {scope : Scope}
    (shows : ReplayShows convert walk operations converted scope) {operation : Operation}
    (isConverted : operation ∈ converted) {name : String} (selects : operation.Selects name) :
    scope.ReadsPattern name := by
  obtain ⟨index, inBounds, rfl⟩ := List.getElem_of_mem isConverted
  obtain ⟨_, gray, _, replayed, _⟩ := shows index
  obtain ⟨next, grayNext, atNext, replayedNext, showsNext⟩ := shows (index + 1)
  -- The walk selects a pattern space with the operation, so the replay does too.
  obtain ⟨middle, early, late⟩ := mapM_take_drop atNext index
  rw [List.drop_take_succ_eq_cons_getElem converted index inBounds] at late
  obtain ⟨operation, _, atOperation⟩ := mapM_eq_singleton late
  have keeps := (respects_mapM (remembers_convertOperation remembers) _).of_ok early
  obtain ⟨step, _⟩ := grayStep_convertOperation remembers (patterns.of_more keeps) atOperation
  obtain ⟨_, slot, isSpace, pattern⟩ := step.of_selects selects
  have grayPattern := showsNext.space_of_pattern pattern
  -- What the replay selects is what the name stands for.
  rw [List.take_succ_eq_append_getElem inBounds, GraphicsState.replay_append_singleton, replayed]
    at replayedNext
  obtain ⟨_, named, own⟩ := selects
  obtain ⟨space, found, rfl⟩ := GraphicsState.follow_space_eq_ok isSpace named own replayedNext
  rw [ink_setInk] at grayPattern
  exact ⟨space, found, grayPattern⟩

/-- The replay of a whole run shows the states of the walk exactly if every name that the
operations in gray select is that of a pattern space. -/
theorem replayShows_iff (remembers : convert.Remembers)
    (patterns : walk.converter.RemembersPatterns) (fresh : walk.state = default)
    (done : operations.mapM (convertOperation convert) walk = .ok converted after)
    (scope : Scope) :
    ReplayShows convert walk operations converted scope ↔
      ∀ operation ∈ converted, ∀ name, operation.Selects name → scope.ReadsPattern name := by
  constructor
  · intro shows operation isConverted name selects
    exact readsPattern_of_replayShows remembers patterns shows isConverted selects
  · intro readable count
    obtain ⟨middle, atPrefix, _⟩ := mapM_take_drop done count
    have showsFirst : walk.state.ShowsAs default := fresh ▸ GraphicsState.showsAs_default
    obtain ⟨gray, replayed, shows⟩ := showsFirst.replay (grayRun_mapM remembers patterns atPrefix)
      fun operation isConverted => readable operation (List.mem_of_mem_take isConverted)
    exact ⟨middle, gray, atPrefix, replayed, shows⟩

end Conversion
end Monochrome
