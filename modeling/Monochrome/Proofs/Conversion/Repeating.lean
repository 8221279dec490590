import Monochrome.Proofs.Content.RoundTrip
import Monochrome.Proofs.Conversion.Outermost

/-!
# Content converted again

Content that a conversion wrote is converted once more when its stream is reached again.  Each of
its operations then stays what it is, up to gray levels that are computed from themselves, as far
as what it paints with can be converted, the pattern spaces that it selects can be read, and a gray
level under a pattern is a color of the space that the converter remembers for the pattern space.
Nothing else can go wrong.
-/

namespace Monochrome

/-- Whether two operations are the same, up to a gray level or to the palette of an inline image. -/
inductive Operation.SameUpToLevel : Operation → Operation → Prop
  /-- The same operation. -/
  | same (operation : Operation) : SameUpToLevel operation operation
  /-- Another number before the same operands. -/
  | level (keyword : String) (first second : Object) (rest : List Object)
      (firstNumber : first.number?.isSome) (secondNumber : second.number?.isSome) :
      SameUpToLevel ⟨keyword, first :: rest⟩ ⟨keyword, second :: rest⟩
  /-- Another palette of gray for an inline image. -/
  | palette (image : Stream) (last : Int64) (bytes : Bytes) :
      SameUpToLevel (Content.imageOperation image)
        (Content.imageOperation (InlineImage.withColorSpace image (.array
          [.named "Indexed", .named "DeviceGray", .integer last, .string bytes .hexadecimal])))

/-- Whether two operands are the same to the operators that set colors, which read names and
numbers: a number may be written in another notation. -/
structure Object.SameNameOrNumber (first second : Object) : Prop where
  name : ∀ bytes, second = .name bytes ↔ first = .name bytes
  number : second.number? = first.number?

/-- Operands that are the same to the operators that set colors have the same text. -/
theorem Object.SameNameOrNumber.text? {first second : Object} (same : first.SameNameOrNumber second) :
    second.text? = first.text? := by
  cases first with
  | name bytes => rw [(same.name bytes).2 rfl]
  | _ =>
      cases second with
      | name bytes => cases (same.name bytes).1 rfl
      | _ => rfl

/-- Whether an operation may be read back as another one: with operands that are the same to the
operators that set colors, or as the same inline image up to the entries that tell its length. -/
inductive Operation.SameAsRead : Operation → Operation → Prop
  /-- An operation that is no inline image. -/
  | ordinary (keyword : String) (operands others : List Object) (notImage : keyword ≠ "BI")
      (same : List.Forall₂ Object.SameNameOrNumber operands others) :
      SameAsRead ⟨keyword, operands⟩ ⟨keyword, others⟩
  /-- An inline image. -/
  | image (original again : Stream)
      (same : (Content.imageOperation original).SameUpToLength (Content.imageOperation again)) :
      SameAsRead (Content.imageOperation original) (Content.imageOperation again)

namespace Conversion
open Change

variable {convert : StreamConversion} {walk after : Walk} {operation again : Operation}

/-- Whether an operation in gray can be converted once more by a walk that has followed it. -/
structure Repeatable (convert : StreamConversion) (walk : Walk) (operation : Operation) :
    Prop where
  /-- A pattern can be converted, and a color under it is one of the space below it. -/
  pattern : ∀ slot name underlying,
    Operator.ofKeyword operation.keyword = .setPatternColor slot →
    (walk.state.ink slot).color = .pattern name underlying →
      (∃ after, convertNamedPattern convert name walk = .ok ⟨⟩ after) ∧
      ∀ values, underlying = some values → ∃ space color,
        (walk.state.ink slot).space = .patternOver space ∧ space.toRgb values = .ok color
  /-- A shading can be converted. -/
  shading : Operator.ofKeyword operation.keyword = .paintShading →
    ∃ name after, Operands.singleName operation.keyword operation.operands = .ok name ∧
      convertNamedShading name walk = .ok ⟨⟩ after
  /-- An inline image is converted to itself, or to itself with another palette of gray. -/
  image : ∀ image, operation = Content.imageOperation image →
    ∃ gray after, convertInlineImage image walk.toScene = .ok gray after ∧
      operation.SameUpToLevel (Content.imageOperation gray)
  /-- External objects can be converted. -/
  xobjects : Operator.ofKeyword operation.keyword = .paintXObject →
    ∃ after, convertXObjects convert operation.operands walk = .ok ⟨⟩ after

/-- An operation is converted after the graphics state has followed it. -/
theorem convertOperation_eq_ok :
    convertOperation convert operation walk = .ok again after ↔
      ∃ state, walk.state.follow walk.scope operation = .ok state ∧
        convertFollowed convert operation { walk with state := state } = .ok again after := by
  simp only [convertOperation, bind_eq_ok, get_eq_ok, lift_eq_ok, modify_eq_ok,
    GraphicsState.follow]
  constructor
  · rintro ⟨_, _, ⟨rfl, rfl⟩, state, _, ⟨applied, rfl⟩, _, _, rfl, followed⟩
    exact ⟨state, applied, followed⟩
  · rintro ⟨state, applied, followed⟩
    exact ⟨_, _, ⟨rfl, rfl⟩, state, _, ⟨applied, rfl⟩, ⟨⟩, _, rfl, followed⟩

/-- A name of its own that is read as a color space has a place. -/
theorem formerSpace?_of_colorSpace {scene : Scene} {name : String}
    {space : ColorSpace Float32 Float}
    (own : (ColorSpace.ofName? name : Option (ColorSpace Float32 Float)) = none)
    (found : scene.scope.colorSpace name = .ok space) :
    ∃ former, formerSpace? scene name = .ok former := by
  simp only [Scope.colorSpace, Outcome.bind_eq_ok] at found
  obtain ⟨entry, atEntry, found⟩ := found
  cases entry with
  | none => simp [own, Outcome.throw_eq_ok] at found
  | some entry =>
      obtain ⟨_, _, _, hasCategory, _, _⟩ := Scope.lookup?_eq_some.1 atEntry
      unfold formerSpace?
      split
      · exact ⟨none, rfl⟩
      · rw [Scope.location?_eq atEntry hasCategory]
        exact ⟨_, rfl⟩

/-- A name of its own that is read as a color space is noted. -/
theorem noteSpace_of_colorSpace {slot : Slot} {name : String} {space : ColorSpace Float32 Float}
    (own : (ColorSpace.ofName? name : Option (ColorSpace Float32 Float)) = none)
    (found : walk.scope.colorSpace name = .ok space) :
    ∃ after, noteSpace slot name walk = .ok ⟨⟩ after := by
  obtain ⟨former, atFormer⟩ := formerSpace?_of_colorSpace own found
  simp only [noteSpace, bind_eq_ok, get_eq_ok, lift_eq_ok]
  cases former with
  | none => exact ⟨_, walk, walk, ⟨rfl, rfl⟩, none, walk, ⟨atFormer, rfl⟩, rfl⟩
  | some former => exact ⟨_, walk, walk, ⟨rfl, rfl⟩, some former, walk, ⟨atFormer, rfl⟩, rfl⟩

/-- The current ink of a slot set again is the state itself. -/
theorem setInk_ink (state : GraphicsState) (slot : Slot) :
    state.setInk slot (state.ink slot) = state := by
  cases slot <;> rfl

/-- The same operation is counted once more. -/
theorem counted_eq_ok (operation : Operation) (walk : Walk) :
    ∃ after, counted operation walk = .ok operation after :=
  ⟨_, rfl⟩

/-- An operation that selects a pattern space stays, and its name is noted. -/
theorem convertSpace_of_pattern {slot : Slot} {name : String}
    (named : Operands.singleName operation.keyword operation.operands = .ok name)
    (pattern : (walk.state.ink slot).space.isPattern = true) :
    convertSpace slot operation walk = .ok again after ↔
      again = operation ∧ (if name = "Pattern" then walk = after
        else noteSpace slot name walk = .ok ⟨⟩ after) := by
  simp only [convertSpace, bind_eq_ok, get_eq_ok]
  constructor
  · rintro ⟨_, _, ⟨rfl, rfl⟩, done⟩
    simp only [pattern, if_true, bind_eq_ok, lift_eq_ok, named, Except.ok.injEq] at done
    obtain ⟨_, _, ⟨rfl, rfl⟩, done⟩ := done
    split at done
    · rename_i differs
      simp only [bind_eq_ok, pure_eq_ok] at done
      obtain ⟨_, _, noted, rfl, rfl⟩ := done
      exact ⟨rfl, by rw [if_neg differs]; exact noted⟩
    · rename_i same
      obtain ⟨rfl, rfl⟩ := pure_eq_ok.1 done
      exact ⟨rfl, by rw [if_pos (not_not.1 same)]⟩
  · rintro ⟨rfl, noted⟩
    refine ⟨_, _, ⟨rfl, rfl⟩, ?_⟩
    simp only [pattern, if_true, bind_eq_ok, lift_eq_ok, named, Except.ok.injEq]
    refine ⟨_, _, ⟨rfl, rfl⟩, ?_⟩
    by_cases same : name = "Pattern"
    · rw [if_pos same] at noted
      rw [if_neg (not_not.2 same)]
      exact pure_eq_ok.2 ⟨rfl, noted⟩
    · rw [if_neg same] at noted
      rw [if_pos same]
      exact bind_eq_ok.2 ⟨_, _, noted, pure_eq_ok.2 ⟨rfl, rfl⟩⟩

/-- An operation that selects a pattern space is converted to itself, and the state shows what it
showed. -/
theorem convertSpace_again {slot : Slot} {name : String} {moved : GraphicsState}
    (patterns : walk.converter.RemembersPatterns)
    (named : Operands.singleName operation.keyword operation.operands = .ok name)
    (ownName : name = "Pattern" ∨
      ((ColorSpace.ofName? name : Option (ColorSpace Float32 Float)) = none ∧
        walk.scope.ReadsPattern name))
    (pattern : (walk.state.ink slot).space.isPattern = true)
    (unset : (walk.state.ink slot).color = .components [])
    (movedPattern : (moved.ink slot).space.isPattern = true)
    (movedUnset : (moved.ink slot).color = .components [])
    (shows : moved.ShowsAs walk.state) :
    ∃ after, convertSpace slot operation walk = .ok operation after ∧
      moved.ShowsAs after.state := by
  by_cases isName : name = "Pattern"
  · refine ⟨walk, (convertSpace_of_pattern named pattern).2 ⟨rfl, ?_⟩, shows⟩
    rw [if_pos isName]
  · obtain ⟨own, space, found, _⟩ := ownName.resolve_left isName
    obtain ⟨after, noted⟩ : ∃ after, noteSpace slot name walk = .ok ⟨⟩ after :=
      noteSpace_of_colorSpace own found
    obtain ⟨_, _, ink, isPattern, stillUnset, atInk⟩ := noteSpace_eq_ok patterns pattern unset noted
    refine ⟨after, (convertSpace_of_pattern named pattern).2 ⟨rfl, ?_⟩, ?_⟩
    · rw [if_neg isName]
      exact noted
    · rw [atInk, ← setInk_ink moved slot]
      refine GraphicsState.Related.setInk shows slot (.pattern _ _ movedPattern isPattern ?_)
      rw [movedUnset, stillUnset]
      exact .unset

/-- A gray level is converted to a gray level. -/
theorem convertColor_level (level : Float32) :
    convertColor convert ⟨.deviceGray, .components [level]⟩ walk =
      .ok [grayLevel (.neutral level)] walk :=
  rfl

/-- A pattern is converted, and then a color under it, if there is one. -/
theorem convertColor_pattern_eq_ok {space : ColorSpace Float32 Float} {name : String}
    {underlying : Option (List Float32)} {operands : List Object} :
    convertColor convert ⟨space, .pattern name underlying⟩ walk = .ok operands after ↔
      convertNamedPattern convert name walk = .ok ⟨⟩ after ∧
        ((underlying = none ∧ operands = [.name (Text.toBytes name)]) ∨
          ∃ values below color, underlying = some values ∧ space = .patternOver below ∧
            below.toRgb values = .ok color ∧
              operands = [grayLevel color, .name (Text.toBytes name)]) := by
  simp only [convertColor, bind_eq_ok]
  constructor
  · rintro ⟨_, _, converted, done⟩
    split at done
    · obtain ⟨rfl, rfl⟩ := pure_eq_ok.1 done
      exact ⟨converted, Or.inl ⟨rfl, rfl⟩⟩
    · rename_i values below
      simp only [bind_eq_ok, lift_eq_ok, pure_eq_ok] at done
      obtain ⟨color, _, ⟨seen, rfl⟩, rfl, rfl⟩ := done
      exact ⟨converted, Or.inr ⟨values, below, color, rfl, rfl, seen, rfl⟩⟩
    · simp only [throw_eq_ok] at done
  · rintro ⟨converted, ⟨rfl, rfl⟩ | ⟨values, below, color, rfl, rfl, seen, rfl⟩⟩
    · exact ⟨_, _, converted, pure_eq_ok.2 ⟨rfl, rfl⟩⟩
    · refine ⟨_, _, converted, bind_eq_ok.2 ⟨color, _, lift_eq_ok.2 ⟨seen, rfl⟩, ?_⟩⟩
      exact pure_eq_ok.2 ⟨rfl, rfl⟩

/-- An operation that sets a color is converted if the color is; it is counted. -/
theorem convertFollowed_color {slot : Slot}
    (isColor : Operator.ofKeyword operation.keyword = .setColor slot ∨
      Operator.ofKeyword operation.keyword = .setPatternColor slot) :
    convertFollowed convert operation walk = .ok again after ↔
      ∃ operands middle, convertColor convert (walk.state.ink slot) walk = .ok operands middle ∧
        counted { operation with operands := operands } middle = .ok again after := by
  rcases isColor with isColor | isColor <;>
    simp only [convertFollowed, isColor, bind_eq_ok, get_eq_ok] <;>
    constructor
  · rintro ⟨_, _, ⟨rfl, rfl⟩, done⟩
    exact done
  · exact fun done => ⟨_, _, ⟨rfl, rfl⟩, done⟩
  · rintro ⟨_, _, ⟨rfl, rfl⟩, done⟩
    exact done
  · exact fun done => ⟨_, _, ⟨rfl, rfl⟩, done⟩

/-- An ink that was set is shown in its slot. -/
theorem showsAs_of_setInk {original shown : GraphicsState} {slot : Slot} {ink : Ink}
    (shows : (original.setInk slot ink).ShowsAs shown) : ink.ShowsAs (shown.ink slot) := by
  have inkShows : ((original.setInk slot ink).ink slot).ShowsAs (shown.ink slot) :=
    shows.current slot
  rwa [ink_setInk] at inkShows

/-- A slot that holds a plain color is shown as a gray level. -/
theorem ink_of_plain {original shown : Ink} (shows : original.ShowsAs shown)
    (plain : original.space.isPattern = false) :
    ∃ level, shown = ⟨.deviceGray, .components [level]⟩ := by
  cases shows with
  | plain level => exact ⟨level, rfl⟩
  | pattern _ isPattern => rw [plain] at isPattern; cases isPattern

/-- A slot that holds a pattern space is shown as a pattern space with the same pattern. -/
theorem ink_of_pattern {original shown : Ink} (shows : original.ShowsAs shown)
    (pattern : original.space.isPattern = true) :
    shown.space.isPattern = true ∧ original.color.ShowsAs shown.color := by
  cases shows with
  | plain _ plain => rw [pattern] at plain; cases plain
  | pattern _ _ staysPattern color => exact ⟨staysPattern, color⟩

/-- An operation that only uses colors is converted to itself, if what it paints with is. -/
theorem convertFollowed_use (remembers : convert.Remembers)
    (isUse : Operator.ofKeyword operation.keyword = .paintShading ∨
      Operator.ofKeyword operation.keyword = .paintXObject ∨
      Operator.ofKeyword operation.keyword = .other)
    (repeatable : Repeatable convert walk operation) :
    ∃ after, convertFollowed convert operation walk = .ok operation after ∧
      after.state = walk.state := by
  rcases isUse with isUse | isUse | isUse
  · obtain ⟨name, after, named, converted⟩ := repeatable.shading isUse
    refine ⟨after, ?_, (Walk.beside_of_ok (isBeside_convertNamedShading name) converted).state⟩
    simp only [convertFollowed, isUse]
    exact bind_eq_ok.2 ⟨name, walk, lift_eq_ok.2 ⟨named, rfl⟩,
      bind_eq_ok.2 ⟨⟨⟩, after, converted, pure_eq_ok.2 ⟨rfl, rfl⟩⟩⟩
  · obtain ⟨after, converted⟩ := repeatable.xobjects isUse
    refine ⟨after, ?_, (Walk.beside_of_ok (isBeside_convertXObjects remembers _) converted).state⟩
    simp only [convertFollowed, isUse]
    exact bind_eq_ok.2 ⟨⟨⟩, after, converted, pure_eq_ok.2 ⟨rfl, rfl⟩⟩
  · refine ⟨walk, ?_, rfl⟩
    simp only [convertFollowed, isUse]
    exact pure_eq_ok.2 ⟨rfl, rfl⟩

/-- An inline image is converted again, if it is converted to itself up to its palette. -/
theorem convertFollowed_image {image : Stream}
    (repeatable : Repeatable convert walk (Content.imageOperation image)) :
    ∃ again after, convertFollowed convert (Content.imageOperation image) walk = .ok again after ∧
      (Content.imageOperation image).SameUpToLevel again ∧ after.state = walk.state := by
  obtain ⟨gray, after, converted, same⟩ := repeatable.image image rfl
  have isImage : Operator.ofKeyword (Content.imageOperation image).keyword = .inlineImage := rfl
  have single : Operands.inlineImage (Content.imageOperation image).operands = .ok image := rfl
  refine ⟨Content.imageOperation gray, { walk with toScene := after }, ?_, same, rfl⟩
  simp only [convertFollowed, isImage, single, bind_eq_ok, lift_eq_ok, pure_eq_ok]
  exact ⟨image, walk, ⟨rfl, rfl⟩, gray, _, within_eq_ok.2 ⟨after, converted, rfl⟩, rfl, rfl⟩

/-- An operation that sets a gray level is converted to one that does. -/
theorem convertFollowed_level {slot : Slot} {operand : Object} {level shown : Float32}
    (isColor : Operator.ofKeyword operation.keyword = .setColor slot ∨
      Operator.ofKeyword operation.keyword = .setPatternColor slot)
    (operands : operation.operands = [operand]) (number : operand.number? = some level)
    (gray : walk.state.ink slot = ⟨.deviceGray, .components [shown]⟩) :
    ∃ again after, convertFollowed convert operation walk = .ok again after ∧
      operation.SameUpToLevel again ∧ after.state = walk.state := by
  obtain ⟨after, isCounted⟩ := counted_eq_ok
    { operation with operands := [grayLevel (.neutral shown)] } walk
  refine ⟨_, after, (convertFollowed_color isColor).2 ⟨_, walk, ?_, isCounted⟩, ?_,
    (Walk.beside_of_ok (isBeside_counted _) isCounted).state⟩
  · rw [gray, convertColor_level]
  · obtain ⟨keyword, own⟩ := operation
    obtain rfl := operands
    obtain ⟨other, otherNumber⟩ :=
      number?_grayOperand (Precision.widen (Rgb.neutral shown : Rgb Float32).gray)
    exact .level _ _ _ _ (by simp [number]) (by simp [grayLevel, otherNumber])

/-- An operation that sets a pattern is converted to itself, up to the gray level under it. -/
theorem convertFollowed_pattern {slot : Slot} {name : String} {underlying : Option (List Float32)}
    (remembers : convert.Remembers)
    (isColor : Operator.ofKeyword operation.keyword = .setPatternColor slot)
    (color : (walk.state.ink slot).color = .pattern name underlying)
    (operands : (underlying = none ∧ operation.operands = [.name (Text.toBytes name)]) ∨
      ∃ operand, underlying.isSome ∧ operand.number?.isSome ∧
        operation.operands = [operand, .name (Text.toBytes name)])
    (repeatable : Repeatable convert walk operation) :
    ∃ again after, convertFollowed convert operation walk = .ok again after ∧
      operation.SameUpToLevel again ∧ after.state = walk.state := by
  obtain ⟨⟨middle, converted⟩, below⟩ := repeatable.pattern slot name underlying isColor color
  have atPattern := (Walk.beside_of_ok (isBeside_convertNamedPattern remembers name) converted).state
  have atInk : walk.state.ink slot = ⟨(walk.state.ink slot).space, .pattern name underlying⟩ := by
    rw [← color]
  rcases operands with ⟨rfl, alone⟩ | ⟨operand, isSome, number, isOver⟩
  · obtain ⟨after, isCounted⟩ := counted_eq_ok operation middle
    refine ⟨operation, after, (convertFollowed_color (Or.inr isColor)).2
      ⟨operation.operands, middle, ?_, isCounted⟩, .same _, ?_⟩
    · rw [atInk]
      exact convertColor_pattern_eq_ok.2 ⟨converted, Or.inl ⟨rfl, alone⟩⟩
    · rw [(Walk.beside_of_ok (isBeside_counted _) isCounted).state, atPattern]
  · obtain ⟨values, rfl⟩ := Option.isSome_iff_exists.1 isSome
    obtain ⟨space, seen, isOver, atColor⟩ := below values rfl
    obtain ⟨after, isCounted⟩ := counted_eq_ok
      { operation with operands := [grayLevel seen, .name (Text.toBytes name)] } middle
    refine ⟨_, after, (convertFollowed_color (Or.inr isColor)).2 ⟨_, middle, ?_, isCounted⟩, ?_, ?_⟩
    · rw [atInk]
      exact convertColor_pattern_eq_ok.2
        ⟨converted, Or.inr ⟨values, space, seen, rfl, isOver, atColor, rfl⟩⟩
    · obtain ⟨keyword, own⟩ := operation
      obtain rfl := isOver
      obtain ⟨other, otherNumber⟩ := number?_grayOperand (Precision.widen seen.gray)
      exact .level _ _ _ _ number (by simp [grayLevel, otherNumber])
    · rw [(Walk.beside_of_ok (isBeside_counted _) isCounted).state, atPattern]

/-- An operation in gray that the graphics state has followed is converted once more, if what it
paints with is and the names that it selects are those of pattern spaces. -/
theorem convertFollowed_again {noted : List String} {state moved : GraphicsState}
    (remembers : convert.Remembers) (patterns : walk.converter.RemembersPatterns)
    (step : GrayStep noted state operation moved) (shows : moved.ShowsAs walk.state)
    (readable : ∀ name, operation.Selects name → walk.scope.ReadsPattern name)
    (repeatable : Repeatable convert walk operation) :
    ∃ again after, convertFollowed convert operation walk = .ok again after ∧
      operation.SameUpToLevel again ∧ moved.ShowsAs after.state := by
  cases step with
  | save _ isSave =>
      refine ⟨operation, walk, ?_, .same _, shows⟩
      simp only [convertFollowed, isSave]
      rfl
  | restore _ isRestore =>
      refine ⟨operation, walk, ?_, .same _, shows⟩
      simp only [convertFollowed, isRestore]
      rfl
  | use _ isUse =>
      obtain ⟨after, done, atState⟩ := convertFollowed_use remembers isUse repeatable
      exact ⟨operation, after, done, .same _, atState ▸ shows⟩
  | image image =>
      obtain ⟨again, after, done, same, atState⟩ := convertFollowed_image repeatable
      exact ⟨again, after, done, same, atState ▸ shows⟩
  | plainSpace _ slot ink isSpace operands plain =>
      obtain ⟨level, atInk⟩ := ink_of_plain (showsAs_of_setInk shows) plain
      obtain ⟨after, isCounted⟩ := counted_eq_ok operation walk
      refine ⟨operation, after, ?_, .same _,
        (Walk.beside_of_ok (isBeside_counted _) isCounted).state ▸ shows⟩
      have notPattern : (walk.state.ink slot).space.isPattern = false := by rw [atInk]; rfl
      simp only [convertFollowed, isSpace, convertSpace]
      refine bind_eq_ok.2 ⟨walk, walk, get_eq_ok.2 ⟨rfl, rfl⟩, ?_⟩
      rw [notPattern, if_neg Bool.false_ne_true, ← operands]
      exact isCounted
  | patternSpace _ slot ink name isSpace named ownName pattern unset =>
      obtain ⟨isPattern, color⟩ := ink_of_pattern (showsAs_of_setInk shows) pattern
      rw [unset] at color
      have stillUnset : (walk.state.ink slot).color = .components [] := by
        generalize (walk.state.ink slot).color = shown at color
        cases color
        rfl
      obtain ⟨after, done, showsAfter⟩ := convertSpace_again patterns named
        (ownName.imp_right fun own => ⟨own.1, readable name ⟨⟨slot, isSpace⟩, named, own.1⟩⟩)
        isPattern stillUnset (by rw [ink_setInk]; exact pattern) (by rw [ink_setInk]; exact unset)
        shows
      refine ⟨operation, after, ?_, .same _, showsAfter⟩
      simp only [convertFollowed, isSpace]
      exact done
  | deviceLevel _ slot ink operand level isGray operands number plain =>
      refine ⟨operation, walk, ?_, .same _, shows⟩
      simp only [convertFollowed, isGray]
      rfl
  | level _ slot color operand level isColor operands number plain =>
      obtain ⟨shown, atInk⟩ := ink_of_plain (showsAs_of_setInk shows) plain
      obtain ⟨again, after, done, same, atState⟩ :=
        convertFollowed_level isColor operands number atInk
      exact ⟨again, after, done, same, atState ▸ shows⟩
  | pattern _ slot name isColor operands pattern =>
      obtain ⟨_, color⟩ := ink_of_pattern (showsAs_of_setInk shows) pattern
      have atColor : (walk.state.ink slot).color = .pattern name none := by
        generalize (walk.state.ink slot).color = shown at color
        cases color
        rfl
      obtain ⟨again, after, done, same, atState⟩ := convertFollowed_pattern remembers isColor
        atColor (Or.inl ⟨rfl, operands⟩) repeatable
      exact ⟨again, after, done, same, atState ▸ shows⟩
  | patternOver _ slot name values operand level isColor operands number pattern =>
      obtain ⟨_, color⟩ := ink_of_pattern (showsAs_of_setInk shows) pattern
      obtain ⟨shown, atColor⟩ : ∃ shown,
          (walk.state.ink slot).color = .pattern name (some [shown]) := by
        generalize (walk.state.ink slot).color = shown at color
        cases color with
        | overLevel _ _ shown => exact ⟨shown, rfl⟩
      obtain ⟨again, after, done, same, atState⟩ := convertFollowed_pattern remembers isColor
        atColor (Or.inr ⟨operand, rfl, by simp [number], operands⟩) repeatable
      exact ⟨again, after, done, same, atState ▸ shows⟩

/-- An operation that was converted once more could be. -/
theorem repeatable_of_convertFollowed
    (done : convertFollowed convert operation walk = .ok again after)
    (same : operation.SameUpToLevel again) : Repeatable convert walk operation where
  pattern slot name underlying isColor color := by
    obtain ⟨operands, middle, converted, _⟩ := (convertFollowed_color (Or.inr isColor)).1 done
    have atInk : walk.state.ink slot = ⟨(walk.state.ink slot).space, .pattern name underlying⟩ := by
      rw [← color]
    rw [atInk] at converted
    obtain ⟨atPattern, ⟨rfl, _⟩ | ⟨values, below, seen, rfl, isOver, atColor, _⟩⟩ :=
      convertColor_pattern_eq_ok.1 converted
    · exact ⟨⟨middle, atPattern⟩, by simp⟩
    · refine ⟨⟨middle, atPattern⟩, fun others isSome => ?_⟩
      obtain rfl := Option.some.inj isSome
      exact ⟨below, seen, isOver, atColor⟩
  shading isUse := by
    simp only [convertFollowed, isUse, bind_eq_ok, lift_eq_ok] at done
    obtain ⟨name, _, ⟨named, rfl⟩, _, middle, converted, _⟩ := done
    exact ⟨name, middle, named, converted⟩
  image image isImage := by
    subst isImage
    have isImage : Operator.ofKeyword (Content.imageOperation image).keyword = .inlineImage := rfl
    have single : Operands.inlineImage (Content.imageOperation image).operands = .ok image := rfl
    simp only [convertFollowed, isImage, single, bind_eq_ok, lift_eq_ok, pure_eq_ok] at done
    obtain ⟨_, _, ⟨atImage, rfl⟩, gray, _, converted, rfl, _⟩ := done
    obtain rfl := Except.ok.inj atImage
    obtain ⟨middle, inScene, _⟩ := within_eq_ok.1 converted
    exact ⟨gray, middle, inScene, same⟩
  xobjects isUse := by
    simp only [convertFollowed, isUse, bind_eq_ok] at done
    obtain ⟨_, middle, converted, _⟩ := done
    exact ⟨middle, converted⟩

/-- An operand that is the same as gray is gray. -/
theorem eq_deviceGray_of_sameUpToLevel {operand : Object}
    (single : operation.operands = [operand])
    (same : operation.SameUpToLevel { operation with operands := [.named "DeviceGray"] }) :
    operand = .named "DeviceGray" := by
  obtain ⟨keyword, operands⟩ := operation
  obtain rfl := single
  generalize gray : ({ keyword := keyword, operands := [.named "DeviceGray"] } : Operation) = again
    at same
  cases same with
  | same =>
      simpa using congrArg Operation.operands gray.symm
  | level _ _ second _ _ number =>
      obtain ⟨rfl, _⟩ := List.cons.inj (congrArg Operation.operands gray)
      simp [Object.named, Object.number?] at number
  | palette image =>
      have isStream := congrArg Operation.operands gray
      simp [Object.named, Content.imageOperation, Stream.toObject] at isStream

/-- A name of its own by which an operation selected a space is that of a pattern space, if the
operation was converted to itself. -/
theorem readsPattern_of_convertOperation {name : String} (selects : operation.Selects name)
    (done : convertOperation convert operation walk = .ok again after)
    (same : operation.SameUpToLevel again) : walk.scope.ReadsPattern name := by
  obtain ⟨state, followed, done⟩ := convertOperation_eq_ok.1 done
  obtain ⟨⟨slot, isSpace⟩, named, own⟩ := selects
  obtain ⟨space, found, rfl⟩ := GraphicsState.follow_space_eq_ok isSpace named own followed
  refine ⟨space, found, ?_⟩
  by_contra plain
  simp only [convertFollowed, isSpace, convertSpace, bind_eq_ok, get_eq_ok] at done
  obtain ⟨_, _, ⟨rfl, rfl⟩, done⟩ := done
  have notPattern : ¬ (Ink.initial space).space.isPattern = true := plain
  rw [ink_setInk, if_neg notPattern] at done
  obtain rfl := eq_of_counted done
  -- The operation would select gray, which is no name of its own.
  obtain ⟨operand, single, text⟩ := Operands.singleName_eq_ok.1 named
  rw [eq_deviceGray_of_sameUpToLevel single same, text?_deviceGray] at text
  obtain rfl := Option.some.inj text
  simp [ColorSpace.ofName?] at own

/-- Whether operations in gray can be converted once more by a walk, one after the other: the names
that they select are those of pattern spaces, and what they paint with can be converted. -/
def RepeatableRun (convert : StreamConversion) : List Operation → Walk → Prop
  | [], _ => True
  | operation :: rest, walk =>
    (∀ name, operation.Selects name → walk.scope.ReadsPattern name) ∧
      (∀ state, walk.state.follow walk.scope operation = .ok state →
        Repeatable convert { walk with state := state } operation) ∧
      ∀ again after, convertOperation convert operation walk = .ok again after →
        RepeatableRun convert rest after

variable {operations others : List Operation}

/-- Operations that were converted to themselves, up to gray levels, could be. -/
theorem repeatableRun_of_mapM
    (done : operations.mapM (convertOperation convert) walk = .ok others after)
    (same : List.Forall₂ Operation.SameUpToLevel operations others) :
    RepeatableRun convert operations walk := by
  induction operations generalizing walk others with
  | nil => trivial
  | cons operation rest inductionHypothesis =>
      obtain ⟨first, middle, later, atFirst, atRest, rfl⟩ := mapM_cons_eq_ok.1 done
      obtain ⟨sameFirst, sameRest⟩ := List.forall₂_cons.1 same
      refine ⟨fun name selects => readsPattern_of_convertOperation selects atFirst sameFirst,
        fun state followed => ?_, fun again after converted => ?_⟩
      · obtain ⟨moved, alsoFollowed, atFollowed⟩ := convertOperation_eq_ok.1 atFirst
        rw [followed] at alsoFollowed
        obtain rfl := Except.ok.inj alsoFollowed
        exact repeatable_of_convertFollowed atFollowed sameFirst
      · rw [atFirst] at converted
        obtain ⟨rfl, rfl⟩ := EStateM.Result.ok.inj converted
        exact inductionHypothesis atRest sameRest

/-- Operations in gray that can be converted once more are converted to themselves, up to gray
levels. -/
theorem mapM_of_repeatableRun {state moved : GraphicsState} (remembers : convert.Remembers)
    (patterns : walk.converter.RemembersPatterns) (run : GrayRun state operations moved)
    (shows : state.ShowsAs walk.state) (repeatable : RepeatableRun convert operations walk) :
    ∃ others after, operations.mapM (convertOperation convert) walk = .ok others after ∧
      List.Forall₂ Operation.SameUpToLevel operations others := by
  induction run generalizing walk with
  | done => exact ⟨[], walk, pure_eq_ok.2 ⟨rfl, rfl⟩, .nil⟩
  | step first rest inductionHypothesis =>
      obtain ⟨readable, repeatableFirst, repeatableRest⟩ := repeatable
      obtain ⟨next, followed, showsNext⟩ := shows.follow first readable
      have patternsNext : { walk with state := next }.converter.RemembersPatterns := patterns
      obtain ⟨again, middle, done, same, showsMiddle⟩ := convertFollowed_again remembers
        patternsNext first showsNext readable (repeatableFirst next followed)
      have converted := convertOperation_eq_ok.2 ⟨next, followed, done⟩
      have keeps := (remembers_convertOperation remembers _).of_ok converted
      obtain ⟨others, after, atRest, sameRest⟩ := inductionHypothesis (patterns.of_more keeps)
        showsMiddle (repeatableRest again middle converted)
      exact ⟨again :: others, after,
        mapM_cons_eq_ok.2 ⟨again, middle, others, converted, atRest, rfl⟩, .cons same sameRest⟩

/-- An operation in gray with the keyword of inline images is one. -/
theorem exists_image_of_grayStep {noted : List String} {state moved : GraphicsState}
    (step : GrayStep noted state operation moved) (isImage : operation.keyword = "BI") :
    ∃ image, operation = Content.imageOperation image ∧ moved = state := by
  cases step
  case image image => exact ⟨image, rfl, rfl⟩
  all_goals simp_all [Operator.ofKeyword]

/-- An operation in gray is read back as one. -/
theorem grayStep_readBack {noted : List String} {state moved : GraphicsState}
    (step : GrayStep noted state operation moved) (same : operation.SameAsRead again) :
    GrayStep noted state again moved := by
  cases same with
  | image original again =>
      obtain ⟨_, _, rfl⟩ := exists_image_of_grayStep step rfl
      exact .image again
  | ordinary keyword operands others notImage same =>
      have single {operand : Object} (alone : operands = [operand]) :
          ∃ other, others = [other] ∧ operand.SameNameOrNumber other := by
        subst alone
        obtain ⟨other, _, sameOperand, none, rfl⟩ := List.forall₂_cons_left_iff.1 same
        cases none
        exact ⟨other, rfl, sameOperand⟩
      cases step with
      | save _ isSave => exact .save _ isSave
      | restore _ isRestore => exact .restore _ isRestore
      | use _ isUse => exact .use _ isUse
      | image => exact absurd rfl notImage
      | plainSpace _ slot ink isSpace alone plain =>
          obtain ⟨other, rfl, sameOperand⟩ := single alone
          exact .plainSpace _ slot ink isSpace (congrArg (fun operand => [operand])
            ((sameOperand.name _).2 rfl)) plain
      | patternSpace _ slot ink name isSpace named ownName pattern unset =>
          obtain ⟨operand, alone, text⟩ := Operands.singleName_eq_ok.1 named
          obtain ⟨other, rfl, sameOperand⟩ := single alone
          have namedAgain : Operands.singleName keyword [other] = .ok name :=
            Operands.singleName_eq_ok.2 ⟨other, rfl, sameOperand.text?.trans text⟩
          exact .patternSpace _ slot ink name isSpace namedAgain ownName pattern unset
      | deviceLevel _ slot ink operand level isGray alone number plain =>
          obtain ⟨other, rfl, sameOperand⟩ := single alone
          exact .deviceLevel _ slot ink other level isGray rfl (sameOperand.number.trans number) plain
      | level _ slot color operand level isColor alone number plain =>
          obtain ⟨other, rfl, sameOperand⟩ := single alone
          exact .level _ slot color other level isColor rfl (sameOperand.number.trans number) plain
      | pattern _ slot name isColor alone pattern =>
          obtain ⟨other, rfl, sameOperand⟩ := single alone
          exact .pattern _ slot name isColor (congrArg (fun operand => [operand])
            ((sameOperand.name _).2 rfl)) pattern
      | patternOver _ slot name values operand level isColor both number pattern =>
          obtain rfl : operands = [operand, .name (Text.toBytes name)] := both
          obtain ⟨other, _, sameOperand, rest, rfl⟩ := List.forall₂_cons_left_iff.1 same
          obtain ⟨last, _, sameName, none, rfl⟩ := List.forall₂_cons_left_iff.1 rest
          cases none
          obtain rfl := (sameName.name _).2 rfl
          exact .patternOver _ slot name values other level isColor rfl
            (sameOperand.number.trans number) pattern

/-- Operations in gray are read back as operations in gray. -/
theorem grayRun_readBack {state moved : GraphicsState} (run : GrayRun state operations moved)
    (same : List.Forall₂ Operation.SameAsRead operations others) :
    GrayRun state others moved := by
  induction run generalizing others with
  | done =>
      cases same
      exact .done _
  | step first rest inductionHypothesis =>
      obtain ⟨again, later, sameFirst, sameRest, rfl⟩ := List.forall₂_cons_left_iff.1 same
      exact .step (grayStep_readBack first sameFirst) (inductionHypothesis sameRest)

/-- An operation in gray that stayed up to its gray level can be written. -/
theorem printOperation_of_sameUpToLevel {noted : List String} {state moved : GraphicsState}
    (step : GrayStep noted state operation moved) (same : operation.SameUpToLevel again) :
    ∃ line, Content.printOperation again = .ok line := by
  by_cases isImage : again.keyword = "BI"
  · obtain ⟨image, rfl⟩ : ∃ image, again = Content.imageOperation image := by
      cases same with
      | same =>
          obtain ⟨image, isOperation, _⟩ := exists_image_of_grayStep step isImage
          exact ⟨image, isOperation⟩
      | level keyword first second rest number =>
          obtain ⟨image, isOperation, _⟩ := exists_image_of_grayStep step isImage
          obtain ⟨rfl, _⟩ := List.cons.inj (congrArg Operation.operands isOperation)
          simp [Stream.toObject, Object.number?] at number
      | palette => exact ⟨_, rfl⟩
    exact ⟨_, rfl⟩
  · exact ⟨again.print ++ [10], by simp [Content.printOperation, isImage, pure, Except.pure]⟩

/-- Operations in gray that stayed up to their gray levels can be written. -/
theorem write_of_sameUpToLevel {state moved : GraphicsState}
    (run : GrayRun state operations moved)
    (same : List.Forall₂ Operation.SameUpToLevel operations others) :
    ∃ bytes, Content.write others = .ok bytes := by
  obtain ⟨lines, printed⟩ : ∃ lines, others.mapM Content.printOperation = .ok lines := by
    induction run generalizing others with
    | done =>
        cases same
        exact ⟨[], rfl⟩
    | step first rest inductionHypothesis =>
        obtain ⟨again, later, sameFirst, sameRest, rfl⟩ := List.forall₂_cons_left_iff.1 same
        obtain ⟨line, atFirst⟩ := printOperation_of_sameUpToLevel first sameFirst
        obtain ⟨lines, atRest⟩ := inductionHypothesis sameRest
        exact ⟨line :: lines, by
          simp [List.mapM_cons, atFirst, atRest, pure, Except.pure, bind, Except.bind]⟩
  exact ⟨lines.flatten, by simp [Content.write, printed, pure, Except.pure, bind, Except.bind]⟩

/-- A stream that is entered, read, walked through and written is converted. -/
theorem convertStream_of_mapM {depth : Nat} {location : Option ObjectId} {scene : Scene}
    {content bytes : Bytes} {start finish : Walk}
    (entered : entering location scene = .ok start) (read : Content.read content = .ok operations)
    (mapped : operations.mapM (convertOperation (convertStream depth)) start = .ok others finish)
    (wrote : Content.write others = .ok bytes) :
    ∃ names after, convertStream (depth + 1) location content scene = .ok (bytes, names) after := by
  simp only [entering, Outcome.bind_eq_ok, Outcome.pure_eq_ok] at entered
  obtain ⟨trail, entered, rfl⟩ := entered
  unfold convertStream
  simp only [bind_eq_ok, pure_eq_ok, inside_eq_ok]
  refine ⟨finish.patternSpaces, _, (bytes, finish.patternSpaces), _,
    ⟨trail, finish.toScene, entered, ?_, rfl⟩, ⟨⟩, _, rfl, rfl, rfl⟩
  refine through_eq_ok.2 ⟨finish, ?_, rfl, rfl⟩
  simp only [convertOperations, bind_eq_ok, lift_eq_ok]
  exact ⟨operations, _, ⟨read, rfl⟩, others, finish, mapped, wrote, rfl⟩

/-- A walk through a stream begins with the first colors, and remembers what was remembered. -/
theorem entering_eq_ok {location : Option ObjectId} {scene : Scene} {start : Walk}
    (entered : entering location scene = .ok start) :
    start.state = default ∧ start.converter.formerSpaces = scene.converter.formerSpaces := by
  simp only [entering, Outcome.bind_eq_ok, Outcome.pure_eq_ok] at entered
  obtain ⟨_, _, rfl⟩ := entered
  exact ⟨rfl, rfl⟩

/-- Whether the content of a stream is converted to the given operations, up to their gray levels,
and the pattern spaces that it selects become gray. -/
def StaysUpToLevel (level : Nat) (place : Option ObjectId) (bytes : Bytes)
    (operations : List Operation) (scene : Scene) : Prop :=
  ∃ start others finish again after,
    convertOwn (convertStream (level + 1)) place bytes scene = .ok again after ∧
    entering place scene = .ok start ∧
    operations.mapM (convertOperation (convertStream level)) start = .ok others finish ∧
    Content.write others = .ok again ∧ List.Forall₂ Operation.SameUpToLevel operations others

end Conversion
end Monochrome
