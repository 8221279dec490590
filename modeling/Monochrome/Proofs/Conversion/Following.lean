import Monochrome.Proofs.Conversion.Remembering
import Monochrome.Proofs.Outcome
import Monochrome.Proofs.Text.Utf8

/-!
# What a converted operation does

An operation that is converted moves the graphics state of the walk, and is replaced by an
operation that fits the move: in a space that is no pattern space a gray level, in a pattern
space the same pattern, with a gray level if there was a color under it.
-/

namespace Monochrome

/-- What an operation does to the graphics state of a walk, with the operation that replaces it.
The names of pattern spaces that the walk selected are given. -/
inductive GrayStep (noted : List String) (state : GraphicsState) : Operation → GraphicsState → Prop
  /-- The colors are saved. -/
  | save (operation : Operation) (isSave : Operator.ofKeyword operation.keyword = .saveState) :
      GrayStep noted state operation state.save
  /-- The colors are restored. -/
  | restore (operation : Operation)
      (isRestore : Operator.ofKeyword operation.keyword = .restoreState) :
      GrayStep noted state operation state.restore
  /-- The colors are only used. -/
  | use (operation : Operation)
      (isUse : Operator.ofKeyword operation.keyword = .paintShading ∨
        Operator.ofKeyword operation.keyword = .paintXObject ∨
        Operator.ofKeyword operation.keyword = .other) :
      GrayStep noted state operation state
  /-- An image is painted that stands in the content. -/
  | image (image : Stream) : GrayStep noted state (Content.imageOperation image) state
  /-- A space that is no pattern space is replaced by gray. -/
  | plainSpace (operation : Operation) (slot : Slot) (ink : Ink)
      (isSpace : Operator.ofKeyword operation.keyword = .setSpace slot)
      (operands : operation.operands = [.named "DeviceGray"])
      (plain : ink.space.isPattern = false) :
      GrayStep noted state operation (state.setInk slot ink)
  /-- A pattern space is selected by its name, and no pattern yet. -/
  | patternSpace (operation : Operation) (slot : Slot) (ink : Ink) (name : String)
      (isSpace : Operator.ofKeyword operation.keyword = .setSpace slot)
      (named : Operands.singleName operation.keyword operation.operands = .ok name)
      (ownName : name = "Pattern" ∨
        ((ColorSpace.ofName? name : Option (ColorSpace Float32 Float)) = none ∧ name ∈ noted))
      (pattern : ink.space.isPattern = true)
      (unset : ink.color = .components []) :
      GrayStep noted state operation (state.setInk slot ink)
  /-- A color of a device space is replaced by a gray level. -/
  | deviceLevel (operation : Operation) (slot : Slot) (ink : Ink) (operand : Object)
      (level : Float32)
      (isGray : Operator.ofKeyword operation.keyword = .setGray slot)
      (operands : operation.operands = [operand])
      (number : operand.number? = some level)
      (plain : ink.space.isPattern = false) :
      GrayStep noted state operation (state.setInk slot ink)
  /-- A color of the selected space is replaced by a gray level. -/
  | level (operation : Operation) (slot : Slot) (color : Color Float32) (operand : Object)
      (level : Float32)
      (isColor : Operator.ofKeyword operation.keyword = .setColor slot ∨
        Operator.ofKeyword operation.keyword = .setPatternColor slot)
      (operands : operation.operands = [operand])
      (number : operand.number? = some level)
      (plain : (state.ink slot).space.isPattern = false) :
      GrayStep noted state operation (state.setInk slot { state.ink slot with color := color })
  /-- A pattern stays. -/
  | pattern (operation : Operation) (slot : Slot) (name : String)
      (isColor : Operator.ofKeyword operation.keyword = .setPatternColor slot)
      (operands : operation.operands = [.name (Text.toBytes name)])
      (pattern : (state.ink slot).space.isPattern = true) :
      GrayStep noted state operation
        (state.setInk slot { state.ink slot with color := .pattern name none })
  /-- A pattern stays, and the color under it is replaced by a gray level. -/
  | patternOver (operation : Operation) (slot : Slot) (name : String) (values : List Float32)
      (operand : Object) (level : Float32)
      (isColor : Operator.ofKeyword operation.keyword = .setPatternColor slot)
      (operands : operation.operands = [operand, .name (Text.toBytes name)])
      (number : operand.number? = some level)
      (pattern : (state.ink slot).space.isPattern = true) :
      GrayStep noted state operation
        (state.setInk slot { state.ink slot with color := .pattern name (some values) })

/-- What operations do to the graphics state of a walk, one after the other. -/
inductive GrayRun : GraphicsState → List Operation → GraphicsState → Prop
  /-- No operation moves the state. -/
  | done (state : GraphicsState) : GrayRun state [] state
  /-- The first operation moves the state, and then the others do. -/
  | step {noted : List String} {state moved after : GraphicsState} {operation : Operation}
      {operations : List Operation} (first : GrayStep noted state operation moved)
      (rest : GrayRun moved operations after) : GrayRun state (operation :: operations) after

/-- Whether an operation selects a color space by a name that no device space has. -/
def Operation.Selects (operation : Operation) (name : String) : Prop :=
  (∃ slot, Operator.ofKeyword operation.keyword = .setSpace slot) ∧
    Operands.singleName operation.keyword operation.operands = .ok name ∧
      (ColorSpace.ofName? name : Option (ColorSpace Float32 Float)) = none

namespace Conversion

/-- The operand that selects gray is the name of the gray device space. -/
theorem text?_deviceGray : Object.text? (.named "DeviceGray") = some "DeviceGray" := by
  rw [Object.named, Object.text?, Text.ofBytes_ascii (by decide)]

end Conversion

/-- A space that is selected by a name of its own is a pattern space that was noted. -/
theorem GrayStep.of_selects {noted : List String} {state moved : GraphicsState}
    {operation : Operation} {name : String} (step : GrayStep noted state operation moved)
    (selects : operation.Selects name) :
    name ∈ noted ∧ ∃ slot, Operator.ofKeyword operation.keyword = .setSpace slot ∧
      (moved.ink slot).space.isPattern = true := by
  obtain ⟨⟨slot, isSpace⟩, named, own⟩ := selects
  cases step with
  | patternSpace _ other ink otherName isOther otherNamed ownName pattern =>
      rw [named] at otherNamed
      obtain rfl := Except.ok.inj otherNamed
      rw [isOther] at isSpace
      obtain rfl := Operator.setSpace.inj isSpace
      rcases ownName with rfl | ⟨_, isNoted⟩
      · simp [ColorSpace.ofName?] at own
      · exact ⟨isNoted, other, isOther, by cases other <;> exact pattern⟩
  | plainSpace _ other ink isOther operands =>
      rw [operands] at named
      obtain ⟨_, single, text⟩ := Operands.singleName_eq_ok.1 named
      obtain rfl := List.singleton_inj.1 single
      rw [Conversion.text?_deviceGray] at text
      obtain rfl := Option.some.inj text
      simp [ColorSpace.ofName?] at own
  | image => simp [Content.imageOperation, Operator.ofKeyword] at isSpace
  | _ => simp_all

namespace Conversion
open Change

variable {convert : StreamConversion} {walk after : Walk} {operation converted : Operation}

/-- Components that are seen as a color are none of a pattern space. -/
theorem isPattern_of_toRgb {space : ColorSpace Float32 Float} {values : List Float32}
    {color : Rgb Float32} (seen : space.toRgb values = .ok color) : space.isPattern = false := by
  cases space
  case pattern =>
    simp only [ColorSpace.toRgb, ColorSpace.ofMany] at seen
    split at seen <;> simp at seen
  case patternOver underlying =>
    simp only [ColorSpace.toRgb, ColorSpace.ofMany] at seen
    split at seen <;> simp at seen
  all_goals rfl

/-- The first color of a pattern space is no pattern yet. -/
theorem color_initial {space : ColorSpace Float32 Float} (pattern : space.isPattern = true) :
    (Ink.initial space).color = .components [] := by
  cases space <;> first | rfl | simp [ColorSpace.isPattern] at pattern

/-- Of the spaces that have a name by themselves, only that of patterns is a pattern space. -/
theorem eq_pattern_of_ofName? {name : String} {space : ColorSpace Float32 Float}
    (named : ColorSpace.ofName? name = some space) (pattern : space.isPattern = true) :
    name = "Pattern" := by
  unfold ColorSpace.ofName? at named
  split at named
  all_goals first
    | rfl
    | simp only [Option.some.injEq] at named
      subst named
      simp [ColorSpace.isPattern] at pattern
    | simp at named

/-- A pattern space that is selected has a name of its own. -/
theorem ownName_of_namedSpace {scope : Scope} {keyword name : String} {operands : List Object}
    {space : ColorSpace Float32 Float}
    (selected : GraphicsState.namedSpace scope keyword operands = .ok space)
    (named : Operands.singleName operation.keyword operands = .ok name)
    (pattern : space.isPattern = true) :
    name = "Pattern" ∨ (ColorSpace.ofName? name : Option (ColorSpace Float32 Float)) = none := by
  have same : Operands.singleName keyword operands = .ok name :=
    Operands.singleName_eq_ok.2 (Operands.singleName_eq_ok.1 named)
  simp only [GraphicsState.namedSpace, same, Outcome.bind_eq_ok, Except.ok.injEq] at selected
  obtain ⟨_, rfl, selected⟩ := selected
  cases known : (ColorSpace.ofName? name : Option (ColorSpace Float32 Float)) with
  | none => exact Or.inr rfl
  | some device =>
      simp only [known, Outcome.pure_eq_ok] at selected
      rw [← selected] at pattern
      exact Or.inl (eq_pattern_of_ofName? known pattern)

/-- Setting an ink that was set replaces it. -/
theorem setInk_setInk (state : GraphicsState) (slot : Slot) (first second : Ink) :
    (state.setInk slot first).setInk slot second = state.setInk slot second := by
  cases slot <;> rfl

/-- An ink that was set is the current one. -/
theorem ink_setInk (state : GraphicsState) (slot : Slot) (ink : Ink) :
    (state.setInk slot ink).ink slot = ink := by
  cases slot <;> rfl

/-- A gray level is a number as an operand. -/
theorem number?_grayOperand (level : Float) :
    ∃ number, (grayOperand level).number? = some number := by
  unfold grayOperand
  dsimp only
  split <;> exact ⟨_, rfl⟩

/-- The former space of a name is a pattern space over another one. -/
theorem formerSpace?_eq_ok {scene : Scene} {name : String} {former : ColorSpace Float32 Float}
    (patterns : scene.converter.RemembersPatterns)
    (found : formerSpace? scene name = .ok (some former)) :
    ∃ underlying, former = .patternOver underlying := by
  unfold formerSpace? at found
  split at found
  · simp [pure, Except.pure] at found
  · simp only [Outcome.bind_eq_ok, Outcome.pure_eq_ok] at found
    obtain ⟨location, _, found⟩ := found
    obtain ⟨place, _, remembered⟩ := Option.bind_eq_some_iff.1 found
    exact patterns place former remembered

/-- Selecting a space that was a pattern space moves the graphics state to its former space. -/
theorem noteSpace_eq_ok {slot : Slot} {name : String}
    (patterns : walk.converter.RemembersPatterns)
    (pattern : (walk.state.ink slot).space.isPattern = true)
    (unset : (walk.state.ink slot).color = .components [])
    (done : noteSpace slot name walk = .ok ⟨⟩ after) :
    after.converter = walk.converter ∧ after.patternSpaces = walk.patternSpaces.insert name ∧
      ∃ ink, ink.space.isPattern = true ∧ ink.color = .components [] ∧
        after.state = walk.state.setInk slot ink := by
  simp only [noteSpace, bind_eq_ok, get_eq_ok, lift_eq_ok] at done
  obtain ⟨_, _, ⟨rfl, rfl⟩, former, _, ⟨found, rfl⟩, done⟩ := done
  cases former with
  | none =>
      simp only [modify_eq_ok] at done
      subst done
      refine ⟨rfl, rfl, walk.state.ink slot, pattern, unset, ?_⟩
      cases slot <;> rfl
  | some former =>
      simp only [bind_eq_ok, modify_eq_ok] at done
      obtain ⟨_, _, rfl, rfl⟩ := done
      obtain ⟨underlying, rfl⟩ := formerSpace?_eq_ok patterns found
      exact ⟨rfl, rfl, .initial (.patternOver underlying), rfl, rfl, rfl⟩

/-- An operation that is counted stays. -/
theorem eq_of_counted (done : counted operation walk = .ok converted after) :
    converted = operation := by
  simp only [counted, bind_eq_ok, pure_eq_ok] at done
  obtain ⟨_, _, _, same, _⟩ := done
  exact same.symm

/-- The operation that selects a space fits the move of the graphics state. -/
theorem grayStep_convertSpace {state : GraphicsState} {slot : Slot} {keyword : String}
    {space : ColorSpace Float32 Float} {scope : Scope}
    (patterns : walk.converter.RemembersPatterns)
    (isSpace : Operator.ofKeyword operation.keyword = .setSpace slot)
    (selected : GraphicsState.namedSpace scope keyword operation.operands = .ok space)
    (moved : walk.state = state.setInk slot (.initial space))
    (done : convertSpace slot operation walk = .ok converted after) :
    GrayStep after.patternSpaces.toList state converted after.state ∧ walk.Keeps after := by
  have current : walk.state.ink slot = .initial space := by rw [moved, ink_setInk]
  simp only [convertSpace, bind_eq_ok, get_eq_ok] at done
  obtain ⟨_, _, ⟨rfl, rfl⟩, done⟩ := done
  rw [current] at done
  split at done
  · rename_i pattern
    simp only [bind_eq_ok, lift_eq_ok] at done
    obtain ⟨name, _, ⟨named, rfl⟩, done⟩ := done
    have ownName := ownName_of_namedSpace selected named pattern
    have unset := color_initial pattern
    split at done
    · simp only [bind_eq_ok, pure_eq_ok] at done
      obtain ⟨_, _, noted, rfl, rfl⟩ := done
      obtain ⟨sameConverter, names, ink, isPattern, stillUnset, noted⟩ :=
        noteSpace_eq_ok patterns (by rw [current]; exact pattern) (by rw [current]; exact unset)
          noted
      rw [noted, moved, setInk_setInk]
      refine ⟨.patternSpace _ slot ink name isSpace named ?_ isPattern stillUnset,
        .of_eq (congrArg Converter.formerSpaces sameConverter), ?_⟩
      · exact ownName.imp_right fun own => ⟨own, names ▸ Names.mem_insert.2 (Or.inl rfl)⟩
      · exact fun other known => names ▸ Names.mem_insert.2 (Or.inr known)
    · rename_i isName
      simp only [pure_eq_ok] at done
      obtain ⟨rfl, rfl⟩ := done
      rw [moved]
      exact ⟨.patternSpace _ slot _ name isSpace named (Or.inl (not_not.1 isName)) pattern unset,
        refl_of _ _⟩
  · rename_i plain
    have beside := Walk.beside_of_ok (isBeside_counted _) done
    rw [eq_of_counted done, beside.state, moved]
    refine ⟨?_, beside.toKeeps⟩
    exact .plainSpace _ slot _ isSpace rfl (by simpa using plain)

/-- The operands of a color in a space that is no pattern space are a gray level. -/
theorem convertColor_components {space : ColorSpace Float32 Float} {values : List Float32}
    {operands : List Object}
    (done : convertColor convert ⟨space, .components values⟩ walk = .ok operands after) :
    space.isPattern = false ∧ ∃ operand level, operands = [operand] ∧
      operand.number? = some level := by
  simp only [convertColor, bind_eq_ok, pure_eq_ok, lift_eq_ok] at done
  obtain ⟨color, _, ⟨seen, rfl⟩, rfl, rfl⟩ := done
  obtain ⟨level, number⟩ := number?_grayOperand (Precision.widen color.gray)
  exact ⟨isPattern_of_toRgb seen, _, level, rfl, number⟩

/-- The operands of a pattern are the pattern, after a gray level if there is a color under it. -/
theorem convertColor_pattern {space : ColorSpace Float32 Float} {name : String}
    {underlying : Option (List Float32)} {operands : List Object}
    (done : convertColor convert ⟨space, .pattern name underlying⟩ walk = .ok operands after) :
    (underlying = none ∧ operands = [.name (Text.toBytes name)]) ∨
      ∃ values operand level, underlying = some values ∧
        operands = [operand, .name (Text.toBytes name)] ∧ operand.number? = some level := by
  simp only [convertColor, bind_eq_ok] at done
  obtain ⟨_, middle, _, done⟩ := done
  split at done
  · simp only [pure_eq_ok] at done
    exact Or.inl ⟨rfl, done.1.symm⟩
  · simp only [bind_eq_ok, pure_eq_ok, lift_eq_ok] at done
    obtain ⟨color, _, _, rfl, _⟩ := done
    obtain ⟨level, number⟩ := number?_grayOperand (Precision.widen color.gray)
    exact Or.inr ⟨_, _, level, rfl, rfl, number⟩
  · simp only [throw_eq_ok] at done

/-- The operation that sets a color fits the move of the graphics state. -/
theorem grayStep_convertColor {state : GraphicsState} {slot : Slot} {color : Color Float32}
    (isColor : Operator.ofKeyword operation.keyword = .setColor slot ∨
      Operator.ofKeyword operation.keyword = .setPatternColor slot)
    (ofPattern : ∀ name underlying, color = .pattern name underlying →
      (state.ink slot).space.isPattern = true ∧
        Operator.ofKeyword operation.keyword = .setPatternColor slot)
    (moved : walk.state = state.setInk slot { state.ink slot with color := color })
    (remembers : convert.Remembers)
    (done : (do
      let operands ← convertColor convert ((← get).state.ink slot)
      counted { operation with operands := operands } : Change Walk Operation) walk =
        .ok converted after) :
    GrayStep after.patternSpaces.toList state converted after.state ∧ walk.Keeps after := by
  simp only [bind_eq_ok, get_eq_ok] at done
  obtain ⟨_, _, ⟨rfl, rfl⟩, operands, middle, atColor, done⟩ := done
  have early := Walk.beside_of_ok (isBeside_convertColor remembers _) atColor
  have late := Walk.beside_of_ok (isBeside_counted _) done
  rw [eq_of_counted done, late.state, early.state, moved]
  refine ⟨?_, trans_of _ early.toKeeps late.toKeeps⟩
  rw [moved, ink_setInk] at atColor
  cases color with
  | components values =>
      obtain ⟨plain, operand, level, rfl, number⟩ := convertColor_components atColor
      exact .level _ slot _ operand level isColor rfl number plain
  | pattern name underlying =>
      obtain ⟨isPattern, isPatternColor⟩ := ofPattern name underlying rfl
      rcases convertColor_pattern atColor with ⟨rfl, rfl⟩ | ⟨values, operand, level, rfl, rfl, number⟩
      · exact .pattern _ slot name isPatternColor rfl isPattern
      · exact .patternOver _ slot name values operand level isPatternColor rfl number isPattern

/-- Operands that are read as three numbers are three numbers. -/
theorem numbers_three {keyword : String} {operands : List Object} {values : List Float32}
    (count : operands.length = 3) (numbers : Operands.numbers keyword operands = .ok values) :
    ∃ first second third, values = [first, second, third] := by
  have lengths := (Operands.numbers_eq_ok.1 numbers).length_eq
  rw [count] at lengths
  exact List.length_eq_three.1 lengths.symm

/-- Operands that are read as four numbers are four numbers. -/
theorem numbers_four {keyword : String} {operands : List Object} {values : List Float32}
    (count : operands.length = 4) (numbers : Operands.numbers keyword operands = .ok values) :
    ∃ first second third fourth, values = [first, second, third, fourth] := by
  have lengths := (Operands.numbers_eq_ok.1 numbers).length_eq
  rw [count] at lengths
  match values, lengths with
  | [first, second, third, fourth], _ => exact ⟨first, second, third, fourth, rfl⟩

/-- A gray level in the place of a color of a device space fits the move of the graphics state. -/
theorem grayStep_grayOperand {state : GraphicsState} {slot : Slot} {ink : Ink} {level : Float}
    (plain : ink.space.isPattern = false)
    (moved : walk.state = state.setInk slot ink)
    (done : counted ⟨slot.grayKeyword, [grayOperand level]⟩ walk = .ok converted after) :
    GrayStep after.patternSpaces.toList state converted after.state ∧ walk.Keeps after := by
  have beside := Walk.beside_of_ok (isBeside_counted _) done
  obtain ⟨number, isNumber⟩ := number?_grayOperand level
  rw [eq_of_counted done, beside.state, moved]
  refine ⟨.deviceLevel _ slot ink _ number ?_ rfl isNumber plain, beside.toKeeps⟩
  cases slot <;> rfl

/-- The operation that sets red, green and blue fits the move of the graphics state. -/
theorem grayStep_convertRgb {state : GraphicsState} {slot : Slot} {ink : Ink}
    (plain : ink.space.isPattern = false)
    (moved : walk.state = state.setInk slot ink)
    (done : convertRgb slot operation walk = .ok converted after) :
    GrayStep after.patternSpaces.toList state converted after.state ∧ walk.Keeps after := by
  simp only [convertRgb, bind_eq_ok, lift_eq_ok, Operands.expectCount_eq_ok] at done
  obtain ⟨_, _, ⟨count, rfl⟩, values, _, ⟨numbers, rfl⟩, done⟩ := done
  obtain ⟨red, green, blue, rfl⟩ := numbers_three count numbers
  exact grayStep_grayOperand plain moved done

/-- The operation that sets four inks fits the move of the graphics state. -/
theorem grayStep_convertInks {state : GraphicsState} {slot : Slot} {ink : Ink}
    (plain : ink.space.isPattern = false)
    (moved : walk.state = state.setInk slot ink)
    (done : convertInks slot operation walk = .ok converted after) :
    GrayStep after.patternSpaces.toList state converted after.state ∧ walk.Keeps after := by
  simp only [convertInks, bind_eq_ok, lift_eq_ok, Operands.expectCount_eq_ok] at done
  obtain ⟨_, _, ⟨count, rfl⟩, values, _, ⟨numbers, rfl⟩, done⟩ := done
  obtain ⟨cyan, magenta, yellow, black, rfl⟩ := numbers_four count numbers
  exact grayStep_grayOperand plain moved done

/-- A step beside an operation that only uses colors fits a graphics state that stays. -/
theorem grayStep_use {step : Change Walk Operation} (isBeside : Walk.IsBeside step)
    (isUse : Operator.ofKeyword converted.keyword = .paintShading ∨
      Operator.ofKeyword converted.keyword = .paintXObject ∨
      Operator.ofKeyword converted.keyword = .other)
    (done : step walk = .ok converted after) :
    GrayStep after.patternSpaces.toList walk.state converted after.state ∧ walk.Keeps after := by
  have beside := Walk.beside_of_ok isBeside done
  rw [beside.state]
  exact ⟨.use converted isUse, beside.toKeeps⟩

/-- The color of a device space that an operator sets. -/
theorem deviceInk_eq_ok {space : ColorSpace Float32 Float} {keyword : String}
    {operands : List Object} {ink : Ink}
    (done : GraphicsState.deviceInk space keyword operands = .ok ink) :
    ink.space = space ∧ operands.length = space.componentCount ∧
      ∃ values, Operands.numbers keyword operands = .ok values := by
  simp only [GraphicsState.deviceInk, GraphicsState.plainColor, Outcome.bind_eq_ok,
    Outcome.pure_eq_ok, Operands.expectCount_eq_ok] at done
  obtain ⟨_, count, color, ⟨values, numbers, _⟩, rfl⟩ := done
  exact ⟨rfl, count, values, numbers⟩

/-- A color that is set as components is no pattern. -/
theorem plainColor_eq_ok {space : ColorSpace Float32 Float} {keyword : String}
    {operands : List Object} {color : Color Float32}
    (done : GraphicsState.plainColor space keyword operands = .ok color) :
    ∃ values, color = .components values := by
  simp only [GraphicsState.plainColor, Outcome.bind_eq_ok, ColorSpace.makeColor] at done
  obtain ⟨values, _, made⟩ := done
  split at made
  · exact ⟨values, (Except.ok.inj made).symm⟩
  · simp at made

/-- The color in a slot after an operator that sets it in the selected space. -/
theorem inkAfter_setColor {scope : Scope} {ink changed : Ink} {operator : Operator} {slot : Slot}
    {operands : List Object}
    (isColor : operator = .setColor slot ∨ operator = .setPatternColor slot)
    (done : GraphicsState.inkAfter scope ink operator operands = .ok changed) :
    ∃ color, changed = { ink with color := color } ∧
      ∀ name underlying, color = .pattern name underlying →
        ink.space.isPattern = true ∧ operator = .setPatternColor slot := by
  rcases isColor with rfl | rfl
  · simp only [GraphicsState.inkAfter, Outcome.bind_eq_ok, Outcome.pure_eq_ok] at done
    obtain ⟨color, plain, rfl⟩ := done
    obtain ⟨values, rfl⟩ := plainColor_eq_ok plain
    exact ⟨_, rfl, by simp⟩
  · simp only [GraphicsState.inkAfter] at done
    split at done
    · rename_i pattern
      simp only [Outcome.bind_eq_ok, Outcome.pure_eq_ok] at done
      obtain ⟨color, _, rfl⟩ := done
      exact ⟨color, rfl, fun _ _ _ => ⟨pattern, rfl⟩⟩
    · simp only [Outcome.bind_eq_ok, Outcome.pure_eq_ok] at done
      obtain ⟨color, plain, rfl⟩ := done
      obtain ⟨values, rfl⟩ := plainColor_eq_ok plain
      exact ⟨_, rfl, by simp⟩

/-- An operation that the graphics state has followed is replaced by one that fits the move. -/
theorem grayStep_convertFollowed {state : GraphicsState} {scope : Scope}
    (remembers : convert.Remembers)
    (patterns : walk.converter.RemembersPatterns)
    (applied : state.apply scope (Operator.ofKeyword operation.keyword) operation.operands =
      .ok walk.state)
    (followed : convertFollowed convert operation walk = .ok converted after) :
    GrayStep after.patternSpaces.toList state converted after.state ∧ walk.Keeps after := by
  unfold convertFollowed at followed
  unfold GraphicsState.apply at applied
  cases isOperator : Operator.ofKeyword operation.keyword with
  | saveState =>
      simp only [isOperator, pure_eq_ok, Except.ok.injEq] at followed applied
      obtain ⟨rfl, rfl⟩ := followed
      rw [← applied]
      exact ⟨.save _ isOperator, refl_of _ _⟩
  | restoreState =>
      simp only [isOperator, pure_eq_ok, Except.ok.injEq] at followed applied
      obtain ⟨rfl, rfl⟩ := followed
      rw [← applied]
      exact ⟨.restore _ isOperator, refl_of _ _⟩
  | setSpace slot =>
      simp only [isOperator, Operator.slot?, GraphicsState.inkAfter, Outcome.bind_eq_ok,
        Outcome.pure_eq_ok] at followed applied
      obtain ⟨ink, ⟨space, selected, rfl⟩, moved⟩ := applied
      exact grayStep_convertSpace patterns isOperator selected moved.symm followed
  | setColor slot =>
      simp only [isOperator, Operator.slot?, Outcome.bind_eq_ok, Outcome.pure_eq_ok]
        at followed applied
      obtain ⟨ink, changed, moved⟩ := applied
      obtain ⟨color, rfl, ofPattern⟩ := inkAfter_setColor (Or.inl rfl) changed
      exact grayStep_convertColor (Or.inl isOperator) (by simpa [isOperator] using ofPattern)
        moved.symm remembers followed
  | setPatternColor slot =>
      simp only [isOperator, Operator.slot?, Outcome.bind_eq_ok, Outcome.pure_eq_ok]
        at followed applied
      obtain ⟨ink, changed, moved⟩ := applied
      obtain ⟨color, rfl, ofPattern⟩ := inkAfter_setColor (Or.inr rfl) changed
      exact grayStep_convertColor (Or.inr isOperator) (by simpa [isOperator] using ofPattern)
        moved.symm remembers followed
  | setGray slot =>
      simp only [isOperator, Operator.slot?, GraphicsState.inkAfter, Outcome.bind_eq_ok,
        Outcome.pure_eq_ok, pure_eq_ok] at followed applied
      obtain ⟨ink, device, moved⟩ := applied
      obtain ⟨rfl, rfl⟩ := followed
      obtain ⟨isGray, count, values, numbers⟩ := deviceInk_eq_ok device
      obtain ⟨operand, single⟩ := List.length_eq_one_iff.1 count
      rw [single] at numbers
      obtain ⟨level, others, number, _, _⟩ :=
        List.forall₂_cons_left_iff.1 (Operands.numbers_eq_ok.1 numbers)
      rw [← moved]
      exact ⟨.deviceLevel _ slot ink operand level isOperator single number (by rw [isGray]; rfl),
        refl_of _ _⟩
  | setRgb slot =>
      simp only [isOperator, Operator.slot?, GraphicsState.inkAfter, Outcome.bind_eq_ok,
        Outcome.pure_eq_ok] at followed applied
      obtain ⟨ink, device, moved⟩ := applied
      exact grayStep_convertRgb (by rw [(deviceInk_eq_ok device).1]; rfl) moved.symm followed
  | setCmyk slot =>
      simp only [isOperator, Operator.slot?, GraphicsState.inkAfter, Outcome.bind_eq_ok,
        Outcome.pure_eq_ok] at followed applied
      obtain ⟨ink, device, moved⟩ := applied
      exact grayStep_convertInks (by rw [(deviceInk_eq_ok device).1]; rfl) moved.symm followed
  | paintShading =>
      simp only [isOperator, Operator.slot?, Except.ok.injEq] at followed applied
      rw [applied]
      have same : converted = operation := by
        simp only [bind_eq_ok, pure_eq_ok] at followed
        obtain ⟨_, _, _, _, _, _, rfl, _⟩ := followed
        rfl
      exact grayStep_use ((respects_lift _).bind fun name =>
        (isBeside_convertNamedShading name).bind fun _ => respects_pure _)
          (by simp [same, isOperator]) followed
  | inlineImage =>
      simp only [isOperator, Operator.slot?, Except.ok.injEq] at followed applied
      rw [applied]
      have beside := Walk.beside_of_ok ((respects_lift _).bind fun image =>
        (Walk.isBeside_onScene (remembers_convertInlineImage image)).bind fun _ =>
          respects_pure _) followed
      simp only [bind_eq_ok, pure_eq_ok] at followed
      obtain ⟨_, _, _, gray, _, _, rfl, rfl⟩ := followed
      rw [beside.state]
      exact ⟨.image gray, beside.toKeeps⟩
  | paintXObject =>
      simp only [isOperator, Operator.slot?, Except.ok.injEq] at followed applied
      rw [applied]
      have same : converted = operation := by
        simp only [bind_eq_ok, pure_eq_ok] at followed
        obtain ⟨_, _, _, rfl, _⟩ := followed
        rfl
      exact grayStep_use ((isBeside_convertXObjects remembers _).bind fun _ => respects_pure _)
        (by simp [same, isOperator]) followed
  | other =>
      simp only [isOperator, Operator.slot?, pure_eq_ok, Except.ok.injEq] at followed applied
      obtain ⟨rfl, rfl⟩ := followed
      rw [← applied]
      exact ⟨.use _ (by simp [isOperator]), refl_of _ _⟩

/-- An operation in gray fits the move of the graphics state, and nothing is forgotten. -/
theorem grayStep_convertOperation (remembers : convert.Remembers)
    (patterns : walk.converter.RemembersPatterns)
    (done : convertOperation convert operation walk = .ok converted after) :
    GrayStep after.patternSpaces.toList walk.state converted after.state ∧ walk.Keeps after := by
  simp only [convertOperation, bind_eq_ok, get_eq_ok, lift_eq_ok, modify_eq_ok] at done
  obtain ⟨_, _, ⟨rfl, rfl⟩, state, _, ⟨applied, rfl⟩, _, _, rfl, followed⟩ := done
  obtain ⟨moved, sameConverter, sameNames, atState, followed⟩ : ∃ moved : Walk,
      moved.converter = walk.converter ∧ moved.patternSpaces = walk.patternSpaces ∧
        moved.state = state ∧ convertFollowed convert operation moved = .ok converted after :=
    ⟨{ walk with state := state }, rfl, rfl, rfl, followed⟩
  obtain ⟨step, keeps⟩ := grayStep_convertFollowed remembers (by rwa [sameConverter])
    (by rw [atState]; exact applied) followed
  exact ⟨step, sameConverter ▸ keeps.remembers, sameNames ▸ keeps.names⟩

end Conversion
end Monochrome
