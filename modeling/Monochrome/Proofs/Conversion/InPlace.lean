import Monochrome.Proofs.Conversion.Repeating

/-!
# Operations one by one

A conversion reads operations and writes operations, one for each in the same place.  What sets no
color stays as it is, what sets a color sets a gray level in the same slot, and a pattern stays
selected under the name that the reader of names makes of its bytes.
-/

namespace Monochrome

/-- What an operation is replaced by, in the graphics state that has followed it. -/
inductive Operation.ReplacedBy (state : GraphicsState) : Operation → Operation → Prop
  /-- What sets no color, or a gray level, stays. -/
  | kept (operation : Operation)
      (isKept : Operator.ofKeyword operation.keyword = .saveState ∨
        Operator.ofKeyword operation.keyword = .restoreState ∨
        (∃ slot, Operator.ofKeyword operation.keyword = .setGray slot) ∨
        Operator.ofKeyword operation.keyword = .paintShading ∨
        Operator.ofKeyword operation.keyword = .paintXObject ∨
        Operator.ofKeyword operation.keyword = .other) :
      ReplacedBy state operation operation
  /-- A pattern space stays selected. -/
  | patternSpace (operation : Operation) (slot : Slot)
      (isSpace : Operator.ofKeyword operation.keyword = .setSpace slot)
      (pattern : (state.ink slot).space.isPattern = true) :
      ReplacedBy state operation operation
  /-- Any other space becomes gray. -/
  | plainSpace (operation : Operation) (slot : Slot)
      (isSpace : Operator.ofKeyword operation.keyword = .setSpace slot)
      (plain : (state.ink slot).space.isPattern = false) :
      ReplacedBy state operation { operation with operands := [.named "DeviceGray"] }
  /-- A color of a space that is no pattern space becomes a number. -/
  | level (operation : Operation) (slot : Slot) (operand : Object) (level : Float32)
      (isColor : Operator.ofKeyword operation.keyword = .setColor slot ∨
        Operator.ofKeyword operation.keyword = .setPatternColor slot)
      (plain : (state.ink slot).space.isPattern = false)
      (number : operand.number? = some level) :
      ReplacedBy state operation { operation with operands := [operand] }
  /-- A pattern stays, by the text of its name. -/
  | pattern (operation : Operation) (slot : Slot) (bytes : Bytes)
      (isColor : Operator.ofKeyword operation.keyword = .setPatternColor slot)
      (pattern : (state.ink slot).space.isPattern = true)
      (operands : operation.operands = [.name bytes]) :
      ReplacedBy state operation
        { operation with operands := [.name (Text.toBytes (Text.ofBytes bytes))] }
  /-- A pattern stays, by the text of its name, and the color under it becomes a number. -/
  | patternOver (operation : Operation) (slot : Slot) (under : List Object) (bytes : Bytes)
      (operand : Object) (level : Float32)
      (isColor : Operator.ofKeyword operation.keyword = .setPatternColor slot)
      (pattern : (state.ink slot).space.isPattern = true)
      (isUnder : under ≠ []) (operands : operation.operands = under ++ [.name bytes])
      (number : operand.number? = some level) :
      ReplacedBy state operation
        { operation with operands := [operand, .name (Text.toBytes (Text.ofBytes bytes))] }
  /-- A color of a device space becomes a gray level of the same slot. -/
  | deviceLevel (operation : Operation) (slot : Slot) (operand : Object) (level : Float32)
      (isDevice : Operator.ofKeyword operation.keyword = .setRgb slot ∨
        Operator.ofKeyword operation.keyword = .setCmyk slot)
      (number : operand.number? = some level) :
      ReplacedBy state operation ⟨slot.grayKeyword, [operand]⟩
  /-- An image in the content stays one. -/
  | image (operation : Operation) (image : Stream)
      (isImage : Operator.ofKeyword operation.keyword = .inlineImage) :
      ReplacedBy state operation (Content.imageOperation image)

/-- A pattern whose name is the bytes of a text stays selected by the same bytes. -/
theorem Operation.ReplacedBy.getLast?_of_text {state : GraphicsState}
    {operation replacement : Operation} {slot : Slot} {name : String}
    (replaced : operation.ReplacedBy state replacement)
    (isColor : Operator.ofKeyword operation.keyword = .setPatternColor slot)
    (pattern : (state.ink slot).space.isPattern = true)
    (named : operation.operands.getLast? = some (.name (Text.toBytes name))) :
    replacement.operands.getLast? = some (.name (Text.toBytes name)) := by
  cases replaced with
  | pattern _ bytes _ _ operands =>
      simp only [operands, List.getLast?_singleton, Option.some.injEq, Object.name.injEq] at named
      simp [named, Text.ofBytes_toBytes]
  | patternOver _ under bytes _ _ _ _ _ operands =>
      simp only [operands, List.getLast?_concat, Option.some.injEq, Object.name.injEq] at named
      simp [named, Text.ofBytes_toBytes]
  | kept => exact named
  | patternSpace _ isSpace => simp [isColor] at isSpace
  | plainSpace _ isSpace => simp [isColor] at isSpace
  | level other _ _ isOther plain =>
      obtain rfl : slot = other := by simpa [isColor] using isOther
      rw [pattern] at plain
      cases plain
  | deviceLevel _ _ _ isDevice => simp [isColor] at isDevice
  | image _ isImage => simp [isColor] at isImage

namespace Conversion
open Change

variable {convert : StreamConversion} {walk after : Walk} {operation converted : Operation}

/-- The operands of a pattern are its name, after the color under it if there is one. -/
theorem operands_of_patternColor {keyword name : String} {operands : List Object}
    {underlying : Option (List Float32)}
    (done : GraphicsState.patternColor keyword operands = .ok (.pattern name underlying)) :
    ∃ under bytes, operands = under ++ [.name bytes] ∧ Text.ofBytes bytes = name ∧
      (underlying = none ↔ under = []) := by
  unfold GraphicsState.patternColor at done
  split at done
  · rename_i last isLast
    simp only [Outcome.bind_eq_ok, Operands.nameOf_eq_ok] at done
    obtain ⟨text, named, done⟩ := done
    obtain ⟨bytes, rfl, rfl⟩ : ∃ bytes, last = .name bytes ∧ Text.ofBytes bytes = text := by
      cases last <;> simp [Object.text?] at named
      exact ⟨_, rfl, named⟩
    have whole : operands = operands.dropLast ++ [.name bytes] :=
      (List.dropLast_append_getLast? _ isLast).symm
    refine ⟨operands.dropLast, bytes, whole, ?_⟩
    split at done
    · rename_i alone
      obtain ⟨rfl, rfl⟩ := Color.pattern.inj (Outcome.pure_eq_ok.mp done)
      exact ⟨rfl, iff_of_true rfl alone⟩
    · rename_i rest
      simp only [Outcome.bind_eq_ok, Outcome.pure_eq_ok, Color.pattern.injEq] at done
      obtain ⟨values, _, rfl, rfl⟩ := done
      exact ⟨rfl, iff_of_false (by simp) rest⟩
  · simp [Outcome.throw_eq_ok] at done

/-- A pattern that is selected in a pattern space is told by the operands. -/
theorem patternColor_of_inkAfter {scope : Scope} {ink : Ink} {slot : Slot} {name : String}
    {operands : List Object} {underlying : Option (List Float32)}
    (pattern : ink.space.isPattern = true)
    (done : GraphicsState.inkAfter scope ink (.setPatternColor slot) operands =
      .ok { ink with color := .pattern name underlying }) :
    ∃ keyword, GraphicsState.patternColor keyword operands = .ok (.pattern name underlying) := by
  simp only [GraphicsState.inkAfter, pattern, if_true, Outcome.bind_eq_ok, Outcome.pure_eq_ok,
    Ink.mk.injEq, true_and] at done
  obtain ⟨color, done, rfl⟩ := done
  exact ⟨_, done⟩

/-- An operation that sets a color in the selected space is replaced by a number, or in a pattern
space by the pattern, after a number if there is a color under it. -/
theorem replacedBy_convertColor {state : GraphicsState} {slot : Slot}
    (isColor : Operator.ofKeyword operation.keyword = .setColor slot ∨
      Operator.ofKeyword operation.keyword = .setPatternColor slot)
    (followed : walk.state.follow walk.scope operation = .ok state)
    (done : (do
      let operands ← convertColor convert ((← get).state.ink slot)
      counted { operation with operands := operands } : Change Walk Operation)
        { walk with state := state } = .ok converted after) :
    operation.ReplacedBy state converted := by
  obtain ⟨ink, changed, rfl⟩ : ∃ ink, GraphicsState.inkAfter walk.scope (walk.state.ink slot)
      (Operator.ofKeyword operation.keyword) operation.operands = .ok ink ∧
        state = walk.state.setInk slot ink := by
    unfold GraphicsState.follow GraphicsState.apply at followed
    rcases isColor with isColor | isColor <;>
      · simp only [isColor, Operator.slot?, Outcome.bind_eq_ok, Outcome.pure_eq_ok] at followed
        obtain ⟨ink, changed, same⟩ := followed
        exact ⟨ink, isColor ▸ changed, same.symm⟩
  obtain ⟨color, rfl, ofPattern⟩ := inkAfter_setColor isColor changed
  simp only [bind_eq_ok, get_eq_ok] at done
  obtain ⟨_, _, ⟨rfl, rfl⟩, operands, middle, atColor, done⟩ := done
  rw [eq_of_counted done]
  have current := ink_setInk walk.state slot { walk.state.ink slot with color := color }
  dsimp only at atColor
  rw [current] at atColor
  cases color with
  | components values =>
      obtain ⟨plain, operand, level, rfl, number⟩ := convertColor_components atColor
      exact .level operation slot operand level isColor (by rw [current]; exact plain) number
  | pattern name underlying =>
      obtain ⟨pattern, isPatternColor⟩ := ofPattern name underlying rfl
      rw [isPatternColor] at changed
      obtain ⟨keyword, told⟩ := patternColor_of_inkAfter pattern changed
      obtain ⟨under, bytes, whole, rfl, alone⟩ := operands_of_patternColor told
      have isPattern : ((walk.state.setInk slot { walk.state.ink slot with
          color := .pattern (Text.ofBytes bytes) underlying }).ink slot).space.isPattern =
            true := by
        rw [current]
        exact pattern
      rcases convertColor_pattern atColor with
        ⟨rfl, rfl⟩ | ⟨values, operand, level, rfl, rfl, number⟩
      · obtain rfl := alone.mp rfl
        exact .pattern operation slot bytes isPatternColor isPattern whole
      · exact .patternOver operation slot under bytes operand level isPatternColor isPattern
          (mt alone.mpr (by simp)) whole number

/-- A gray level in the place of a color of a device space replaces the operation that set it. -/
theorem replacedBy_grayOperand {state : GraphicsState} {slot : Slot} {level : Float}
    (isDevice : Operator.ofKeyword operation.keyword = .setRgb slot ∨
      Operator.ofKeyword operation.keyword = .setCmyk slot)
    (done : counted ⟨slot.grayKeyword, [grayOperand level]⟩ walk = .ok converted after) :
    operation.ReplacedBy state converted := by
  obtain ⟨number, isNumber⟩ := number?_grayOperand level
  rw [eq_of_counted done]
  exact .deviceLevel operation slot _ number isDevice isNumber

/-- An operation that selects a space is replaced by itself if that is a pattern space, and else by
one that selects gray. -/
theorem replacedBy_convertSpace {slot : Slot}
    (isSpace : Operator.ofKeyword operation.keyword = .setSpace slot)
    (done : convertSpace slot operation walk = .ok converted after) :
    operation.ReplacedBy walk.state converted := by
  simp only [convertSpace, bind_eq_ok, get_eq_ok] at done
  obtain ⟨_, _, ⟨rfl, rfl⟩, done⟩ := done
  split at done
  · rename_i pattern
    have same : converted = operation := by
      simp only [bind_eq_ok] at done
      obtain ⟨_, _, _, done⟩ := done
      split at done
      · simp only [bind_eq_ok, pure_eq_ok] at done
        obtain ⟨_, _, _, rfl, _⟩ := done
        rfl
      · exact (pure_eq_ok.mp done).1.symm
    exact same ▸ .patternSpace operation slot isSpace pattern
  · rename_i plain
    exact eq_of_counted done ▸ .plainSpace operation slot isSpace (by simpa using plain)

/-- The operation that an operation is converted to replaces it in the state that has followed
it. -/
theorem replacedBy_convertOperation
    (done : convertOperation convert operation walk = .ok converted after) :
    ∃ state, walk.state.follow walk.scope operation = .ok state ∧
      operation.ReplacedBy state converted := by
  obtain ⟨state, followed, done⟩ := convertOperation_eq_ok.mp done
  refine ⟨state, followed, ?_⟩
  unfold convertFollowed at done
  cases isOperator : Operator.ofKeyword operation.keyword with
  | saveState | restoreState | setGray | other =>
      simp only [isOperator, pure_eq_ok] at done
      exact done.1 ▸ .kept operation (by simp [isOperator])
  | paintShading =>
      simp only [isOperator, bind_eq_ok, pure_eq_ok] at done
      obtain ⟨_, _, _, _, _, _, rfl, _⟩ := done
      exact .kept operation (by simp [isOperator])
  | paintXObject =>
      simp only [isOperator, bind_eq_ok, pure_eq_ok] at done
      obtain ⟨_, _, _, rfl, _⟩ := done
      exact .kept operation (by simp [isOperator])
  | inlineImage =>
      simp only [isOperator, bind_eq_ok, pure_eq_ok] at done
      obtain ⟨_, _, _, gray, _, _, rfl, _⟩ := done
      exact .image operation gray isOperator
  | setSpace slot =>
      simp only [isOperator] at done
      exact replacedBy_convertSpace isOperator done
  | setColor slot =>
      simp only [isOperator] at done
      exact replacedBy_convertColor (Or.inl isOperator) followed done
  | setPatternColor slot =>
      simp only [isOperator] at done
      exact replacedBy_convertColor (Or.inr isOperator) followed done
  | setRgb slot =>
      simp only [isOperator, convertRgb, bind_eq_ok, lift_eq_ok, Operands.expectCount_eq_ok] at done
      obtain ⟨_, _, ⟨count, rfl⟩, values, _, ⟨numbers, rfl⟩, done⟩ := done
      obtain ⟨red, green, blue, rfl⟩ := numbers_three count numbers
      exact replacedBy_grayOperand (Or.inl isOperator) done
  | setCmyk slot =>
      simp only [isOperator, convertInks, bind_eq_ok, lift_eq_ok, Operands.expectCount_eq_ok]
        at done
      obtain ⟨_, _, ⟨count, rfl⟩, values, _, ⟨numbers, rfl⟩, done⟩ := done
      obtain ⟨cyan, magenta, yellow, black, rfl⟩ := numbers_four count numbers
      exact replacedBy_grayOperand (Or.inr isOperator) done

/-- Whether operations are replaced by as many others, each in its place, in the state in which the
conversion of those before it leaves the walk. -/
def ReplacesInPlace (convert : StreamConversion) (start : Walk)
    (operations converted : List Operation) : Prop :=
  converted.length = operations.length ∧
    ∀ index operation replacement, operations[index]? = some operation →
      converted[index]? = some replacement →
        ∃ walk state, (operations.take index).mapM (convertOperation convert) start =
            .ok (converted.take index) walk ∧
          walk.state.follow walk.scope operation = .ok state ∧
          operation.ReplacedBy state replacement

/-- The operations of a walk are replaced in place. -/
theorem replacesInPlace_mapM {operations replacements : List Operation}
    (done : operations.mapM (convertOperation convert) walk = .ok replacements after) :
    ReplacesInPlace convert walk operations replacements := by
  refine ⟨length_of_mapM done, fun index operation replacement isOperation isReplacement => ?_⟩
  obtain ⟨middle, early, late⟩ := mapM_take_drop done index
  obtain ⟨inList, rfl⟩ := List.getElem?_eq_some_iff.mp isOperation
  obtain ⟨inReplacements, rfl⟩ := List.getElem?_eq_some_iff.mp isReplacement
  rw [List.drop_eq_getElem_cons inList, List.drop_eq_getElem_cons inReplacements] at late
  obtain ⟨_, _, _, converts, _, same⟩ := mapM_cons_eq_ok.mp late
  obtain ⟨rfl, -⟩ := List.cons.inj same
  obtain ⟨state, followed, replaced⟩ := replacedBy_convertOperation converts
  exact ⟨middle, state, early, followed, replaced⟩

/-- Whether a stream is converted with success, as the outermost one or at some depth inside
others. -/
def Converts (location : Option ObjectId) (content : Bytes) (scene : Scene) (bytes : Bytes)
    (left : Scene) : Prop :=
  (location = none ∧ contentToGray content scene = .ok bytes left) ∨
    ∃ depth names, convertStream depth location content scene = .ok (bytes, names) left

end Conversion
end Monochrome
