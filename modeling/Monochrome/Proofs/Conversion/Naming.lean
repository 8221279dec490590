import Monochrome.Proofs.ColorSpace.Storing
import Monochrome.Proofs.Conversion.Replay
import Monochrome.Proofs.Conversion.Using
import Monochrome.Proofs.Limits

/-!
# Operators and the resources that they name

An operator is given the key of a resource as a name.  The key is read as a text, and the bytes of that
text are looked up; these are the key itself if and only if the key is a text in UTF-8.  What stands under
such a key in the category of the operator is what it uses, and nothing else.  Only the operators that
select a color space look first whether the text is the name of a device space, or its abbreviation.
-/

namespace Monochrome

open Limited Outcome

namespace Scope

/-- Whether an object stands under a key of a category of the resources. -/
def Holds (scope : Scope) (kind : ResourceKind) (key : Bytes) (object : Object) : Prop :=
  ∃ location category, scope.HasCategory kind location category ∧ category.find? key = some object

/-- Whether nothing stands under a key of a category of the resources. -/
def Lacks (scope : Scope) (kind : ResourceKind) (key : Bytes) : Prop :=
  ∃ location category, scope.HasCategory kind location category ∧ category.find? key = none

/-- The color space that an object stands for. -/
def spaceOf (scope : Scope) (object : Object) : Outcome (ColorSpace Float32 Float) := do
  ColorSpace.read scope.document (← scope.document.resolve object)

/-- The pattern that an object stands for. -/
def patternOf (scope : Scope) (object : Object) : Outcome Pattern := do
  let (location, value) ← scope.document.resolveWithId object
  Pattern.read scope.document location value

/-- The external object that an object stands for. -/
def xobjectOf (scope : Scope) (object : Object) : Outcome XObject := do
  let (location, value) ← scope.document.resolveWithId object
  XObject.read scope.document location value

variable {scope : Scope} {kind : ResourceKind} {name : String} {object : Object}

/-! ## Looking up -/

/-- What stands under the bytes of a name is found by it. -/
theorem lookup?_of_holds (held : scope.Holds kind (Text.toBytes name) object) :
    scope.lookup? kind name = (do
      let (location, value) ← scope.document.resolveWithId object
      return some ⟨location, value⟩) := by
  obtain ⟨location, category, hasCategory, found⟩ := held
  rw [lookup?, category?_eq_some.2 ⟨location, hasCategory⟩, ok_bind, Option.bind_some, found]

/-- What stands under the bytes of a name is what must be there. -/
theorem lookup_of_holds (held : scope.Holds kind (Text.toBytes name) object) :
    scope.lookup kind name = (do
      let (location, value) ← scope.document.resolveWithId object
      return ⟨location, value⟩) := by
  rw [lookup, lookup?_of_holds held]
  cases scope.document.resolveWithId object <;> rfl

/-- A name is undefined if nothing stands under its bytes. -/
theorem lookup_of_lacks (lacks : scope.Lacks kind (Text.toBytes name)) :
    scope.lookup kind name = .error (.undefined (.resource kind) name) := by
  obtain ⟨location, category, hasCategory, absent⟩ := lacks
  rw [lookup, lookup?, category?_eq_some.2 ⟨location, hasCategory⟩, ok_bind, Option.bind_some, absent]
  rfl

/-- A chain of references has no names that could be undefined. -/
theorem followChain_ne_undefined {document : Document} {definition : Definition} (steps : Nat)
    (location : Option ObjectId) (object : Object) :
    document.followChain steps location object ≠ .error (.undefined definition name) := by
  induction steps generalizing location object with
  | zero => simp [Document.followChain]
  | succ steps inductionHypothesis =>
      cases object with
      | reference target =>
          rw [Document.followChain]
          split
          · exact inductionHypothesis _ _
          · simp
      | _ => simp [Document.followChain]

/-- What stands under the bytes of a name is defined. -/
theorem lookup_ne_undefined {definition : Definition} {text : String}
    (held : scope.Holds kind (Text.toBytes name) object) :
    scope.lookup kind name ≠ .error (.undefined definition text) := by
  rw [lookup_of_holds held]
  exact bind_ne_error (followChain_ne_undefined _ _ _) fun _ => nofun

/-- The color space under the bytes of a name. -/
theorem colorSpace_of_holds (held : scope.Holds .colorSpace (Text.toBytes name) object) :
    scope.colorSpace name = scope.spaceOf object := by
  rw [colorSpace, lookup?_of_holds held, spaceOf, Document.resolve]
  cases scope.document.resolveWithId object <;> rfl

/-- The pattern under the bytes of a name. -/
theorem pattern_of_holds (held : scope.Holds .pattern (Text.toBytes name) object) :
    scope.pattern name = scope.patternOf object := by
  rw [pattern, lookup_of_holds held, patternOf]
  cases scope.document.resolveWithId object <;> rfl

/-- The shading under the bytes of a name. -/
theorem shading_of_holds (held : scope.Holds .shading (Text.toBytes name) object) :
    scope.shading name = scope.document.resolve object := by
  rw [shading, lookup_of_holds held, Document.resolve]
  cases scope.document.resolveWithId object <;> rfl

/-- The external object under the bytes of a name. -/
theorem xobject_of_holds (held : scope.Holds .xobject (Text.toBytes name) object) :
    scope.xobject name = scope.xobjectOf object := by
  rw [xobject, lookup_of_holds held, xobjectOf]
  cases scope.document.resolveWithId object <;> rfl

end Scope

/-! ## Converting what was read -/

/-- A set has a name if and only if it has it besides another one. -/
theorem Names.contains_insert_of_ne {names : Names} {name other : String} (different : other ≠ name) :
    (names.insert other).contains name = names.contains name := by
  rw [Bool.eq_iff_iff, contains, contains, List.contains_iff_mem, List.contains_iff_mem, mem_insert,
    or_iff_right different.symm]

namespace Conversion

open Change

variable {convert : StreamConversion} {walk : Walk} {name : String} {α β : Type}

/-- Reads what is used for the first time, and goes on with it. -/
def useOnce (isKnown : Walk → Bool) (note : Walk → Walk) (read : Outcome α)
    (next : α → Change Walk Unit) : Change Walk Unit := do
  if isKnown (← get) then return
  modify note
  next (← read)

/-- What is known is left out; else it is noted, read and gone on with. -/
theorem useOnce_eq_ok {isKnown : Walk → Bool} {note : Walk → Walk} {read : Outcome α}
    {next : α → Change Walk Unit} {after : Walk} :
    useOnce isKnown note read next walk = .ok ⟨⟩ after ↔
      if isKnown walk then walk = after
      else ∃ value, read = .ok value ∧ next value (note walk) = .ok ⟨⟩ after := by
  simp only [useOnce, Change.bind_eq_ok, Change.get_eq_ok]
  constructor
  · rintro ⟨_, _, ⟨rfl, rfl⟩, done⟩
    split_ifs at done ⊢
    · exact (Change.pure_eq_ok.1 done).2
    · simp only [Change.bind_eq_ok, Change.modify_eq_ok, Change.lift_eq_ok] at done
      obtain ⟨_, _, rfl, value, _, ⟨isValue, rfl⟩, done⟩ := done
      exact ⟨value, isValue, done⟩
  · intro done
    refine ⟨_, _, ⟨rfl, rfl⟩, ?_⟩
    split_ifs at done ⊢
    · exact Change.pure_eq_ok.2 ⟨rfl, done⟩
    · obtain ⟨value, isValue, done⟩ := done
      simp only [Change.bind_eq_ok, Change.modify_eq_ok, Change.lift_eq_ok]
      exact ⟨⟨⟩, _, rfl, value, _, ⟨isValue, rfl⟩, done⟩

/-- Converts a pattern that was read under a name. -/
def convertPatternAs (convert : StreamConversion) (name : String) (pattern : Pattern) :
    Change Walk Unit := do
  let gray ← Walk.onJob (convertPattern convert pattern)
  Walk.setResource .pattern name gray.toObject
  Walk.onJob <| Job.count fun counts =>
    { counts with patternsConverted := counts.patternsConverted + 1 }

/-- Converts a shading that was read under a name. -/
def convertShadingAs (name : String) (shading : Object) : Change Walk Unit := do
  let gray ← Walk.onJob (Job.onDocument (Shading.toGray shading))
  Walk.setResource .shading name gray
  Walk.onJob <| Job.count fun counts =>
    { counts with shadingsConverted := counts.shadingsConverted + 1 }

/-- The operands that set a pattern in gray: the pattern, after the level of the color under it if there is
one. -/
def patternOperands (space : ColorSpace Float32 Float) (name : String) :
    Option (List Float32) → Outcome (List Object)
  | none => return [.name (Text.toBytes name)]
  | some values =>
    match space with
    | .patternOver below => return [grayLevel (← below.toRgb values), .name (Text.toBytes name)]
    | _ => throw (.mismatch .underlyingSpace)

/-- Converts an external object that was read under a name. -/
def convertXObjectAs (convert : StreamConversion) (name : String) : XObject → Change Walk Unit
  | .image image => do
    match ← Walk.onJob (convertImage image) with
    | some gray =>
      Walk.setResource .xobject name gray.toObject
      Walk.onJob <| Job.count fun counts =>
        { counts with imagesConverted := counts.imagesConverted + 1 }
    | none => return
  | .form form => do
    let gray ← convertForm convert form
    Walk.setResource .xobject name gray.stream.toObject
    Walk.onJob <| Job.count fun counts =>
      { counts with formsConverted := counts.formsConverted + 1 }
  | .other _ => return

/-- A step that is left out for what is known, and else notes and reads it. -/
theorem unless_known_eq_useOnce (walk : Walk) (isKnown : Walk → Bool) {note : Walk → Walk}
    {read : Outcome α} {next : α → Change Walk Unit} {step : Change Walk Unit}
    (same : step walk = (do next (← read) : Change Walk Unit) (note walk)) :
    (if isKnown walk = true then pure ⟨⟩ else step : Change Walk Unit) walk =
      useOnce isKnown note read next walk := by
  show _ = (if isKnown walk = true then pure ⟨⟩ else _ : Change Walk Unit) walk
  split
  · rfl
  · exact same

/-- The pattern with a name is read and converted when it is first used. -/
theorem convertNamedPattern_apply (convert : StreamConversion) (name : String) (walk : Walk) :
    convertNamedPattern convert name walk =
      useOnce (·.patterns.contains name) (·.notePattern name) (walk.scope.pattern name)
        (convertPatternAs convert name) walk := by
  refine unless_known_eq_useOnce walk (·.patterns.contains name) ?_
  rfl

/-- The shading with a name is read and converted when it is first used. -/
theorem convertNamedShading_apply (name : String) (walk : Walk) :
    convertNamedShading name walk =
      useOnce (·.shadings.contains name) (·.noteShading name) (walk.scope.shading name)
        (convertShadingAs name) walk := by
  refine unless_known_eq_useOnce walk (·.shadings.contains name) ?_
  rfl

/-- The external object with a name is read and converted when it is first used. -/
theorem convertNamedXObject_apply (convert : StreamConversion) (name : String) (walk : Walk) :
    convertNamedXObject convert name walk =
      useOnce (·.xobjects.contains name) (·.noteXObject name) (walk.scope.xobject name)
        (convertXObjectAs convert name) walk := by
  refine unless_known_eq_useOnce walk (·.xobjects.contains name) ?_
  rfl

/-- A pattern is converted, and then the color under it. -/
theorem convertColor_ofPattern (convert : StreamConversion) (space : ColorSpace Float32 Float)
    (name : String) (underlying : Option (List Float32)) :
    convertColor convert ⟨space, .pattern name underlying⟩ = (do
      convertNamedPattern convert name
      return ← patternOperands space name underlying) := by
  cases underlying with
  | none => rfl
  | some values =>
      cases space with
      | patternOver below =>
          refine congrArg (convertNamedPattern convert name >>= ·) (funext fun _ => ?_)
          show (do
            return [grayLevel (← below.toRgb values), .name (Text.toBytes name)] :
              Change Walk (List Object)) = _
          rw [patternOperands]
          cases below.toRgb values <;> rfl
      | _ => rfl

/-! ## Operators -/

variable {keyword : String} {slot : Slot} {key : Bytes}

/-- Steps that do the same are followed by the same. -/
theorem bind_apply {first second : Change Walk α} (same : first walk = second walk)
    (next : α → Change Walk β) : (first >>= next) walk = (second >>= next) walk := by
  show EStateM.bind first next walk = EStateM.bind second next walk
  rw [EStateM.bind, EStateM.bind, same]

/-- An operation that is followed is converted. -/
theorem convertOperation_of_follow {operation : Operation} {state : GraphicsState}
    (followed : walk.state.follow walk.scope operation = .ok state) :
    convertOperation convert operation walk =
      convertFollowed convert operation { walk with state := state } := by
  show (do
    let state ← walk.state.follow walk.scope operation
    modify fun walk => { walk with state := state }
    convertFollowed convert operation : Change Walk Operation) walk = _
  rw [followed]
  rfl

/-- A key is read as a text. -/
theorem singleName_key (keyword : String) (key : Bytes) :
    Operands.singleName keyword [.name key] = .ok (Text.ofBytes key) :=
  Operands.singleName_eq_ok.2 ⟨_, rfl, rfl⟩

/-- The color under a pattern that components tell, if there are some. -/
def colorUnder (components : List Object) (values : List Float32) : Option (List Float32) :=
  if components = [] then none else some values

/-- The walk in which a slot has a pattern as its color. -/
def withPattern (walk : Walk) (slot : Slot) (name : String) (underlying : Option (List Float32)) : Walk :=
  { walk with
    state := walk.state.setInk slot { walk.state.ink slot with color := .pattern name underlying } }

/-- The color of a pattern is told by its key, after the components of the color under it if there are
some. -/
theorem patternColor_key (keyword : String) {components : List Object} {values : List Float32}
    (areNumbers : List.Forall₂ (fun operand value => operand.number? = some value) components values) :
    GraphicsState.patternColor keyword (components ++ [.name key]) =
      .ok (.pattern (Text.ofBytes key) (colorUnder components values)) := by
  rw [GraphicsState.patternColor, List.getLast?_concat, List.dropLast_concat]
  cases components with
  | nil => rfl
  | cons first rest =>
      have numbers : Operands.numbers keyword (first :: rest) = .ok values :=
        Operands.numbers_eq_ok.2 areNumbers
      show (do
        return Color.pattern (Text.ofBytes key)
          (some (← Operands.numbers keyword (first :: rest)))) = _
      rw [numbers]
      rfl

/-- The space whose name a key is comes before those of the resources. -/
theorem follow_device {space : ColorSpace Float32 Float}
    (isDevice : ColorSpace.ofName? (Text.ofBytes key) = some space) (state : GraphicsState)
    (scope : Scope) (isOperator : Operator.ofKeyword keyword = .setSpace slot) :
    state.follow scope ⟨keyword, [.name key]⟩ = .ok (state.setInk slot (.initial space)) := by
  refine GraphicsState.follow_space state isOperator fun keyword => ?_
  rw [GraphicsState.namedSpace, singleName_key, ok_bind, isDevice]
  rfl

/-- A key that is the name of no device space selects the space of that name in the resources. -/
theorem follow_colorSpace
    (own : (ColorSpace.ofName? (Text.ofBytes key) : Option (ColorSpace Float32 Float)) = none)
    (state : GraphicsState) (scope : Scope)
    (isOperator : Operator.ofKeyword keyword = .setSpace slot) :
    state.follow scope ⟨keyword, [.name key]⟩ =
      (do return state.setInk slot (.initial (← scope.colorSpace (Text.ofBytes key)))) := by
  have named (keyword : String) : GraphicsState.namedSpace scope keyword [.name key] =
      scope.colorSpace (Text.ofBytes key) := by
    rw [GraphicsState.namedSpace, singleName_key, ok_bind, own]
  rw [GraphicsState.follow, isOperator]
  show (do return state.setInk slot (← (do
    return Ink.initial (← GraphicsState.namedSpace scope _ [.name key])))) = _
  rw [named]
  cases scope.colorSpace (Text.ofBytes key) <;> rfl

/-- Painting leaves the graphics state as it is. -/
theorem convertOperation_paint {operation : Operation}
    (paints : Operator.ofKeyword operation.keyword = .paintShading ∨
      Operator.ofKeyword operation.keyword = .paintXObject) :
    convertOperation convert operation walk = convertFollowed convert operation walk := by
  have followed : walk.state.follow walk.scope operation = .ok walk.state := by
    rcases paints with isOperator | isOperator <;> rw [GraphicsState.follow, isOperator] <;> rfl
  exact convertOperation_of_follow followed

/-- A shading is converted when it is painted. -/
theorem convertOperation_shading (isOperator : Operator.ofKeyword keyword = .paintShading) :
    convertOperation convert ⟨keyword, [.name key]⟩ walk =
      (do
        convertNamedShading (Text.ofBytes key)
        return ⟨keyword, [.name key]⟩ : Change Walk Operation) walk := by
  rw [convertOperation_paint (Or.inl isOperator), convertFollowed]
  simp only [isOperator, singleName_key]
  rfl

/-- An external object is converted when it is painted. -/
theorem convertOperation_xobject (isOperator : Operator.ofKeyword keyword = .paintXObject) :
    convertOperation convert ⟨keyword, [.name key]⟩ walk =
      (do
        convertNamedXObject convert (Text.ofBytes key)
        return ⟨keyword, [.name key]⟩ : Change Walk Operation) walk := by
  have only : convertXObjects convert [.name key] = convertNamedXObject convert (Text.ofBytes key) := by
    show (convertNamedXObject convert (Text.ofBytes key) >>= pure) = _
    exact bind_pure _
  rw [convertOperation_paint (Or.inr isOperator), convertFollowed]
  simp only [isOperator, only]

/-- A pattern is converted when it is set, and then the color under it. -/
theorem convertOperation_pattern (isOperator : Operator.ofKeyword keyword = .setPatternColor slot)
    (isPattern : (walk.state.ink slot).space.isPattern = true) {components : List Object}
    {values : List Float32}
    (areNumbers : List.Forall₂ (fun operand value => operand.number? = some value) components values) :
    convertOperation convert ⟨keyword, components ++ [.name key]⟩ walk =
      (do
        convertNamedPattern convert (Text.ofBytes key)
        counted ⟨keyword, ← patternOperands (walk.state.ink slot).space (Text.ofBytes key)
          (colorUnder components values)⟩ : Change Walk Operation)
        (withPattern walk slot (Text.ofBytes key) (colorUnder components values)) := by
  have followed : walk.state.follow walk.scope ⟨keyword, components ++ [.name key]⟩ = .ok _ :=
    GraphicsState.follow_pattern walk.state isOperator isPattern fun keyword =>
      patternColor_key keyword areNumbers
  rw [convertOperation_of_follow followed, convertFollowed]
  simp only [isOperator]
  show ((do
    let operands ← convertColor convert (((walk.state.setInk slot _).ink slot))
    counted ⟨keyword, operands⟩ : Change Walk Operation)) _ = _
  rw [ink_setInk, convertColor_ofPattern, bind_assoc]
  rfl

/-- Another key in UTF-8 has another text. -/
theorem ofBytes_ne {other : Bytes} (isText : Text.toBytes (Text.ofBytes key) = key)
    (isOther : Text.toBytes (Text.ofBytes other) = other) (different : other ≠ key) :
    Text.ofBytes other ≠ Text.ofBytes key := fun same =>
  different (by rw [← isOther, same, isText])

/-- What the operators use that are given a key: what stands under it in the category of the operator. -/
structure UsesEntries (convert : StreamConversion) (walk : Walk) (key : Bytes) : Prop where
  /-- A color space is selected, unless the key is the name of a device space. -/
  space {object : Object} (held : walk.scope.Holds .colorSpace key object)
    (own : (ColorSpace.ofName? (Text.ofBytes key) : Option (ColorSpace Float32 Float)) = none)
    {keyword : String} {slot : Slot} (isOperator : Operator.ofKeyword keyword = .setSpace slot) :
    walk.state.follow walk.scope ⟨keyword, [.name key]⟩ =
      (do return walk.state.setInk slot (.initial (← walk.scope.spaceOf object)))
  /-- A pattern, a shading or an external object is read, wherever one is read by its name. -/
  reads (object : Object) :
    (walk.scope.Holds .pattern key object →
      walk.scope.pattern (Text.ofBytes key) = walk.scope.patternOf object) ∧
    (walk.scope.Holds .shading key object →
      walk.scope.shading (Text.ofBytes key) = walk.document.resolve object) ∧
    (walk.scope.Holds .xobject key object →
      walk.scope.xobject (Text.ofBytes key) = walk.scope.xobjectOf object)
  /-- In a pattern space, a pattern is set and is converted when it is first used, and then the color under
  it. -/
  pattern {object : Object} (held : walk.scope.Holds .pattern key object) {keyword : String} {slot : Slot}
    (isOperator : Operator.ofKeyword keyword = .setPatternColor slot)
    (isPattern : (walk.state.ink slot).space.isPattern = true) {components : List Object}
    {values : List Float32}
    (areNumbers : List.Forall₂ (fun operand value => operand.number? = some value) components values) :
    convertOperation convert ⟨keyword, components ++ [.name key]⟩ walk =
      (do
        useOnce (·.patterns.contains (Text.ofBytes key)) (·.notePattern (Text.ofBytes key))
          (walk.scope.patternOf object) (convertPatternAs convert (Text.ofBytes key))
        counted ⟨keyword, ← patternOperands (walk.state.ink slot).space (Text.ofBytes key)
          (colorUnder components values)⟩ : Change Walk Operation)
        (withPattern walk slot (Text.ofBytes key) (colorUnder components values))
  /-- A shading is converted when it is first painted. -/
  shading {object : Object} (held : walk.scope.Holds .shading key object) {keyword : String}
    (isOperator : Operator.ofKeyword keyword = .paintShading) :
    convertOperation convert ⟨keyword, [.name key]⟩ walk =
      (do
        useOnce (·.shadings.contains (Text.ofBytes key)) (·.noteShading (Text.ofBytes key))
          (walk.document.resolve object) (convertShadingAs (Text.ofBytes key))
        return ⟨keyword, [.name key]⟩ : Change Walk Operation) walk
  /-- An external object is converted when it is first painted. -/
  xobject {object : Object} (held : walk.scope.Holds .xobject key object) {keyword : String}
    (isOperator : Operator.ofKeyword keyword = .paintXObject) :
    convertOperation convert ⟨keyword, [.name key]⟩ walk =
      (do
        useOnce (·.xobjects.contains (Text.ofBytes key)) (·.noteXObject (Text.ofBytes key))
          (walk.scope.xobjectOf object) (convertXObjectAs convert (Text.ofBytes key))
        return ⟨keyword, [.name key]⟩ : Change Walk Operation) walk
  /-- Nothing of this is undefined. -/
  defined {kind : ResourceKind} {object : Object} (held : walk.scope.Holds kind key object)
    (definition : Definition) (text : String) :
    walk.scope.lookup kind (Text.ofBytes key) ≠ .error (.undefined definition text)
  /-- The use of another key is not taken for the use of this one. -/
  others {other : Bytes} (isOther : Text.toBytes (Text.ofBytes other) = other) (different : other ≠ key) :
    (walk.notePattern (Text.ofBytes other)).patterns.contains (Text.ofBytes key) =
      walk.patterns.contains (Text.ofBytes key) ∧
    (walk.noteShading (Text.ofBytes other)).shadings.contains (Text.ofBytes key) =
      walk.shadings.contains (Text.ofBytes key) ∧
    (walk.noteXObject (Text.ofBytes other)).xobjects.contains (Text.ofBytes key) =
      walk.xobjects.contains (Text.ofBytes key)

/-- Operators that are given a key in UTF-8 use what stands under it in their category. -/
theorem usesEntries_of_text (convert : StreamConversion) (walk : Walk)
    (isText : Text.toBytes (Text.ofBytes key) = key) : UsesEntries convert walk key where
  space held own _ slot isOperator := by
    rw [← isText] at held
    rw [follow_colorSpace own walk.state walk.scope isOperator, Scope.colorSpace_of_holds held]
  reads _ := by
    refine ⟨fun held => ?_, fun held => ?_, fun held => ?_⟩ <;> rw [← isText] at held
    · exact Scope.pattern_of_holds held
    · exact Scope.shading_of_holds held
    · exact Scope.xobject_of_holds held
  pattern held _ _ isOperator isPattern _ _ areNumbers := by
    rw [← isText] at held
    rw [convertOperation_pattern isOperator isPattern areNumbers]
    refine bind_apply ?_ _
    rw [convertNamedPattern_apply]
    exact congrArg (useOnce _ _ · _ _) (Scope.pattern_of_holds held)
  shading held _ isOperator := by
    rw [← isText] at held
    rw [convertOperation_shading isOperator]
    refine bind_apply ?_ _
    rw [convertNamedShading_apply, Scope.shading_of_holds held]
    rfl
  xobject held _ isOperator := by
    rw [← isText] at held
    rw [convertOperation_xobject isOperator]
    refine bind_apply ?_ _
    rw [convertNamedXObject_apply, Scope.xobject_of_holds held]
  defined held definition text := by
    rw [← isText] at held
    exact Scope.lookup_ne_undefined held
  others isOther different := by
    have unlike := ofBytes_ne isText isOther different
    exact ⟨Names.contains_insert_of_ne unlike, Names.contains_insert_of_ne unlike,
      Names.contains_insert_of_ne unlike⟩

/-- Operators that are given a key in UTF-8 use what stands under it in their category.  An operator that
selects a color space takes the name of a device space, or its abbreviation, for that space, whatever
stands under it.  A key that is not in UTF-8 is looked up by other bytes, and can be undefined so. -/
theorem operators_use_entries (convert : StreamConversion) (walk : Walk) (key : Bytes) :
    (Text.toBytes (Text.ofBytes key) = key → UsesEntries convert walk key) ∧
    (∀ space, ColorSpace.ofName? (Text.ofBytes key) = some space →
      ∀ keyword slot, Operator.ofKeyword keyword = .setSpace slot →
        walk.state.follow walk.scope ⟨keyword, [.name key]⟩ =
          .ok (walk.state.setInk slot (.initial space))) ∧
    ∀ kind, walk.scope.Lacks kind (Text.toBytes (Text.ofBytes key)) →
      walk.scope.lookup kind (Text.ofBytes key) =
        .error (.undefined (.resource kind) (Text.ofBytes key)) :=
  ⟨usesEntries_of_text convert walk,
    fun _ isDevice _ _ isOperator => follow_device isDevice walk.state walk.scope isOperator,
    fun _ lacks => Scope.lookup_of_lacks lacks⟩

/-- A walk under resources of which one is named like the abbreviation of a device space, and one has a
key that is not in UTF-8. -/
def ambiguousWalk : Walk where
  document := default
  converter := default
  resources := .direct (Dictionary.ofEntries
    [("ColorSpace", .dictionary (Dictionary.ofEntries
        [("Cs", .named "DeviceRGB"), ("G", .named "DeviceRGB")])),
      ("Shading", .dictionary (Table.ofList [([0xFF], .dictionary Table.empty)]))])

/-- The first color space is selected, but not the one with the abbreviation of gray; the shading is
undefined. -/
theorem operators_use_entries_ambiguousWalk :
    ambiguousWalk.scope.Holds .colorSpace (Bytes.ascii "Cs") (.named "DeviceRGB") ∧
    ambiguousWalk.state.follow ambiguousWalk.scope ⟨"cs", [.named "Cs"]⟩ =
      .ok (ambiguousWalk.state.setInk .fill (.initial .deviceRgb)) ∧
    ambiguousWalk.scope.Holds .colorSpace (Bytes.ascii "G") (.named "DeviceRGB") ∧
    ambiguousWalk.state.follow ambiguousWalk.scope ⟨"cs", [.named "G"]⟩ =
      .ok (ambiguousWalk.state.setInk .fill (.initial .deviceGray)) ∧
    ambiguousWalk.scope.Holds .shading [0xFF] (.dictionary Table.empty) ∧
    ambiguousWalk.scope.lookup .shading (Text.ofBytes [0xFF]) =
      .error (.undefined (.resource .shading) (Text.ofBytes [0xFF])) := by
  have first : ambiguousWalk.scope.Holds .colorSpace (Bytes.ascii "Cs") (.named "DeviceRGB") :=
    ⟨none, _, ⟨_, _, rfl, rfl, rfl⟩, rfl⟩
  have second : ambiguousWalk.scope.Holds .colorSpace (Bytes.ascii "G") (.named "DeviceRGB") :=
    ⟨none, _, ⟨_, _, rfl, rfl, rfl⟩, rfl⟩
  have shading : ambiguousWalk.scope.Holds .shading [0xFF] (.dictionary Table.empty) :=
    ⟨none, _, ⟨_, _, rfl, rfl, rfl⟩, rfl⟩
  have lacks : ambiguousWalk.scope.Lacks .shading (Text.toBytes (Text.ofBytes [0xFF])) :=
    ⟨none, _, ⟨_, _, rfl, rfl, rfl⟩, by decide +kernel⟩
  have isText : Text.toBytes (Text.ofBytes (Bytes.ascii "Cs")) = Bytes.ascii "Cs" := by decide +kernel
  have own : (ColorSpace.ofName? (Text.ofBytes (Bytes.ascii "Cs")) :
      Option (ColorSpace Float32 Float)) = none := by
    rw [show Text.ofBytes (Bytes.ascii "Cs") = "Cs" by decide +kernel]
    rfl
  have isDevice : (ColorSpace.ofName? (Text.ofBytes (Bytes.ascii "G")) :
      Option (ColorSpace Float32 Float)) = some .deviceGray := by
    rw [show Text.ofBytes (Bytes.ascii "G") = "G" by decide +kernel]
    rfl
  have isOperator : Operator.ofKeyword "cs" = .setSpace .fill := rfl
  have isSpace : ambiguousWalk.scope.spaceOf (.named "DeviceRGB") = .ok .deviceRgb := by
    rw [Scope.spaceOf, Document.resolve_of_value rfl, ok_bind]
    exact ColorSpace.read_named rfl
  obtain ⟨uses, -, -⟩ :=
    operators_use_entries (streamConversion default) ambiguousWalk (Bytes.ascii "Cs")
  obtain ⟨-, devices, -⟩ :=
    operators_use_entries (streamConversion default) ambiguousWalk (Bytes.ascii "G")
  obtain ⟨-, -, undefined⟩ := operators_use_entries (streamConversion default) ambiguousWalk [0xFF]
  refine ⟨first, ?_, second, devices .deviceGray isDevice "cs" .fill isOperator, shading,
    undefined .shading lacks⟩
  refine ((uses isText).space first own isOperator).trans ?_
  rw [isSpace]
  rfl

end Conversion
end Monochrome
