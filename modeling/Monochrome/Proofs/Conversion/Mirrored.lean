import Monochrome.Proofs.Conversion.Forgetting
import Monochrome.Proofs.Conversion.Selecting

/-!
# Conversion by a converter that forgets

A page can be converted by a converter that forgot some of what was remembered when the page began.
It converts the page as the other one does, as long as all that the page selects still tells what is
remembered of it: then nothing that was forgotten is missed.  Only two of the functions below ask
what is remembered; the others are mirrored because what they are made of is.
-/

namespace Monochrome
open Change

variable {start : Converter} {job : Job} {scene : Scene} {walk : Walk}

namespace Conversion

/-- Whether every stream is converted alike by a converter that forgets, on any trail, as long as
what it selects still tells what is remembered of it. -/
def StreamConversion.IsMirrored (start : Converter) (convert : StreamConversion)
    (selects : StreamSelection) : Prop :=
  ∀ trail location content scene,
    (∀ selection, selects location content scene selection →
      selection.StillTells start.formerSpaces) →
    Change.IsMirrored (Scene.Forgets { start with trail := trail }) (convert location content) scene

variable {convert : StreamConversion} {selects : StreamSelection}

/-- Makes the space gray that a named pattern space is over, and remembers it for a place. -/
def settlePatternSpace (name : String) (location : Option EntryLocation) : Change Scene Unit := do
  match ← (← get).scope.colorSpace name with
  | .patternOver underlying =>
    Scene.onScope (Scope.setColorSpace name (.patternOver .deviceGray))
    match location with
    | some location =>
      modify fun scene =>
        let former := scene.converter.formerSpaces.insert location (.patternOver underlying)
        { scene with converter := { scene.converter with formerSpaces := former } }
    | none => return
  | _ => return

/-- A pattern space is made gray unless its place is remembered. -/
theorem convertPatternSpace_eq_ok_iff {name : String} {left : Scene} :
    convertPatternSpace name scene = .ok ⟨⟩ left ↔
      ∃ location, scene.scope.location? .colorSpace name = .ok location ∧
        if location.any scene.converter.formerSpaces.contains then scene = left
        else settlePatternSpace name location scene = .ok ⟨⟩ left := by
  simp only [convertPatternSpace, bind_eq_ok, get_eq_ok, lift_eq_ok]
  constructor
  · rintro ⟨_, _, ⟨rfl, rfl⟩, location, _, ⟨atLocation, rfl⟩, done⟩
    refine ⟨location, atLocation, ?_⟩
    split_ifs at done ⊢
    · exact (pure_eq_ok.1 done).2
    · exact done
  · rintro ⟨location, atLocation, done⟩
    refine ⟨_, _, ⟨rfl, rfl⟩, location, _, ⟨atLocation, rfl⟩, ?_⟩
    split_ifs at done ⊢
    · exact pure_eq_ok.2 ⟨rfl, done⟩
    · exact done

/-- Making a pattern space gray is mirrored. -/
theorem isMirrored_settlePatternSpace (name : String) (location : Option EntryLocation) :
    IsMirrored (Scene.Forgets start) (settlePatternSpace name location) scene := by
  refine Scene.isMirrored_get_bind (fun _ _ => rfl) (isMirrored_lift_bind fun space _ => ?_)
  split
  · refine (Scene.isMirrored_onScope _).bind fun _ middle _ => ?_
    cases location with
    | none => exact isMirrored_pure _
    | some location =>
        refine isMirrored_modify ?_
        rintro _ ⟨converter, forgets, rfl⟩
        exact ⟨_, forgets.insert location _, rfl⟩
  · exact isMirrored_pure _

/-- A name that holds a pattern space over gray is made gray by remembering that space. -/
theorem settlePatternSpace_of_gray {name : String} {location : EntryLocation} {entry : Scope.Entry}
    (found : scene.scope.lookup? .colorSpace name = .ok (some entry))
    (isGray : entry.value = grayPatternSpace) :
    settlePatternSpace name (some location) scene =
      .ok ⟨⟩ { scene with
        converter := { scene.converter with
          formerSpaces :=
            scene.converter.formerSpaces.insert location (.patternOver .deviceGray) } } := by
  simp only [settlePatternSpace, bind_eq_ok, get_eq_ok, lift_eq_ok]
  refine ⟨_, _, ⟨rfl, rfl⟩, _, _, ⟨colorSpace_of_gray found isGray, rfl⟩, ?_⟩
  exact bind_eq_ok.2
    ⟨⟨⟩, scene, within_eq_ok.2 ⟨_, setColorSpace_of_gray found isGray, rfl⟩, rfl⟩

/-- Making the pattern space with a name gray is mirrored if the name still tells what is
remembered. -/
theorem isMirrored_convertPatternSpace {name : String}
    (tells : Selection.StillTells ⟨scene.scope, name⟩ start.formerSpaces) :
    IsMirrored (Scene.Forgets start) (convertPatternSpace name) scene := by
  rintro _ ⟨⟩ left ⟨converter, forgets, rfl⟩ done
  obtain ⟨location, atLocation, done⟩ := convertPatternSpace_eq_ok_iff.1 done
  have known (place : EntryLocation) (isKnown : converter.formerSpaces.contains place = true) :
      scene.converter.formerSpaces.contains place = true := by
    obtain ⟨space, found⟩ := Option.isSome_iff_exists.1 isKnown
    exact Option.isSome_iff_exists.2 ⟨space, forgets.remembered place space found⟩
  -- The place can be known to both, to the remembering one alone, or to none of them.
  by_cases isKnownToo : location.any converter.formerSpaces.contains = true
  · obtain ⟨place, rfl, isKnown⟩ := (Option.any_eq_true _ _).1 isKnownToo
    rw [if_pos (by simpa using known place isKnown)] at done
    exact ⟨_, convertPatternSpace_eq_ok_iff.2 ⟨_, atLocation, by rw [if_pos isKnownToo]⟩, converter,
      done ▸ forgets, by rw [done]⟩
  · have settles {mirrored : Scene}
        (settled : settlePatternSpace name location { scene with converter := converter } =
          .ok ⟨⟩ mirrored) :
        convertPatternSpace name { scene with converter := converter } = .ok ⟨⟩ mirrored :=
      convertPatternSpace_eq_ok_iff.2
        ⟨location, atLocation, by rw [if_neg isKnownToo]; exact settled⟩
    split_ifs at done with isKnown
    · subst done
      obtain ⟨place, rfl, isKnown⟩ := (Option.any_eq_true _ _).1 isKnown
      obtain ⟨space, found⟩ := Option.isSome_iff_exists.1 isKnown
      have lost : converter.formerSpaces.find? place = none := by
        simpa [Table.contains] using isKnownToo
      have atStart : start.formerSpaces.find? place = some space :=
        (forgets.forgotten place space found).resolve_left (by simp [lost])
      obtain ⟨rfl, entry, isEntry, isGray⟩ := tells place space atLocation atStart
      exact ⟨_, settles (settlePatternSpace_of_gray isEntry isGray), _, forgets.remind found, rfl⟩
    · obtain ⟨mirrored, settled, forgetsAfter⟩ :=
        isMirrored_settlePatternSpace name location _ ⟨⟩ left ⟨converter, forgets, rfl⟩ done
      exact ⟨mirrored, settles settled, forgetsAfter⟩

/-- Converting the content of a stream and its pattern spaces is mirrored. -/
theorem isMirrored_convertOwn (mirrors : convert.IsMirrored start selects)
    {location : Option ObjectId} {content : Bytes}
    (tells : ∀ selection, OwnSelects convert selects location content scene selection →
      selection.StillTells start.formerSpaces) :
    IsMirrored (Scene.Forgets start) (convertOwn convert location content) scene := by
  have converts := mirrors start.trail location content scene fun selection selected =>
    tells selection (Or.inl selected)
  refine converts.bind fun ⟨bytes, names⟩ middle done => ?_
  refine IsMirrored.bind ?_ fun _ _ _ => isMirrored_pure _
  have settling : ∀ selection : Selection, Happens convertPatternSpace
      (fun name (scene : Scene) => selection = ⟨scene.scope, name⟩) names.toList middle →
        selection.StillTells start.formerSpaces := fun selection happens =>
    tells selection (Or.inr ⟨bytes, names, middle, done, happens⟩)
  exact isMirrored_forM (fun name scene tells => isMirrored_convertPatternSpace (tells _ rfl))
    settling

/-- Converting a stream under resources of its own is mirrored. -/
theorem isMirrored_convertContent (mirrors : convert.IsMirrored start selects)
    {source : ContentStream} {content : Bytes} {own : Resources}
    (tells : ∀ selection, OwnSelects convert selects source.location content ⟨job, own⟩ selection →
      selection.StillTells start.formerSpaces) :
    IsMirrored (Job.Forgets start) (convertContent convert source content own) job := by
  refine (Job.isMirrored_withResources (isMirrored_convertOwn mirrors tells)).bind ?_
  intro ⟨bytes, left⟩ middle _
  refine Job.isMirrored_get_bind (fun _ same => by simp only [same]) ?_
  cases left <;> exact isMirrored_pure _

/-- Converting a pattern is mirrored. -/
theorem isMirrored_convertPattern (mirrors : convert.IsMirrored start selects) {pattern : Pattern}
    (tells : ∀ selection, PatternSelects convert selects pattern job selection →
      selection.StillTells start.formerSpaces) :
    IsMirrored (Job.Forgets start) (convertPattern convert pattern) job := by
  unfold convertPattern
  cases pattern with
  | tiling cell paintType =>
      dsimp only
      split
      · rename_i setsColors
        refine Job.isMirrored_get_bind (fun _ _ => rfl) ?_
        refine isMirrored_lift_bind fun content isContent => ?_
        refine isMirrored_lift_bind fun own isOwn => ?_
        have converts := isMirrored_convertContent mirrors fun selection selected =>
          tells selection
            ⟨cell, paintType, content, own, rfl, setsColors, isContent, isOwn, selected⟩
        exact converts.bind fun _ _ _ => isMirrored_pure _
      · exact isMirrored_pure _
  | shading entries shading location =>
      refine (Job.isMirrored_onDocument _).bind fun gray _ _ => ?_
      cases location with
      | some target => exact (Job.isMirrored_onDocument _).bind fun _ _ _ => isMirrored_pure _
      | none => exact isMirrored_pure _

/-- Converting an image is mirrored. -/
theorem isMirrored_convertImage (image : Stream) :
    IsMirrored (Job.Forgets start) (convertImage image) job := by
  refine Job.isMirrored_get_bind (fun _ same => by simp only [same]) ?_
  refine isMirrored_lift_bind fun isMask _ => ?_
  split
  · exact isMirrored_pure _
  · refine isMirrored_lift_bind fun space _ => isMirrored_lift_bind fun task _ => ?_
    cases task with
    | keep => exact isMirrored_pure _
    | replaceSpace gray =>
        exact (Job.isMirrored_onDocument _).bind fun _ _ _ => isMirrored_pure _
    | replaceSamples space encoder =>
        refine isMirrored_lift_bind fun samples _ => isMirrored_lift_bind fun colors _ => ?_
        exact isMirrored_lift_bind fun encoded _ => isMirrored_pure _

/-- Converting an inline image is mirrored. -/
theorem isMirrored_convertInlineImage (image : Stream) :
    IsMirrored (Scene.Forgets start) (convertInlineImage image) scene := by
  refine Scene.isMirrored_get_bind (fun _ same => by simp only [Scene.scope, same]) ?_
  split
  · exact isMirrored_pure _
  · refine isMirrored_lift_bind fun space _ => isMirrored_lift_bind fun task _ => ?_
    cases task with
    | keep => exact isMirrored_pure _
    | replaceSpace gray => exact (Scene.isMirrored_onScope _).bind fun _ _ _ => isMirrored_pure _
    | replaceSamples space encoder =>
        refine isMirrored_lift_bind fun samples _ => isMirrored_lift_bind fun colors _ => ?_
        exact (Scene.isMirrored_onJob (Job.isMirrored_count _)).bind fun _ _ _ => isMirrored_lift _

/-- Converting a named pattern is mirrored. -/
theorem isMirrored_convertNamedPattern (mirrors : convert.IsMirrored start selects) {name : String}
    (tells : ∀ selection, NamedPatternSelects convert selects name walk selection →
      selection.StillTells start.formerSpaces) :
    IsMirrored (Walk.Forgets start) (convertNamedPattern convert name) walk := by
  refine Walk.isMirrored_get_bind (fun _ _ => rfl) ?_
  split
  · exact isMirrored_pure _
  · rename_i fresh
    refine Walk.isMirrored_modify_bind ?_ (fun _ => rfl) rfl
    refine isMirrored_lift_bind fun pattern isPattern => ?_
    refine IsMirrored.bind (Walk.isMirrored_onJob (isMirrored_convertPattern mirrors
      fun selection selected =>
        tells selection ⟨by simpa using fresh, pattern, isPattern, selected⟩)) fun gray _ _ => ?_
    exact (Walk.isMirrored_setResource _ _ _).bind fun _ _ _ => Walk.isMirrored_count _

/-- Converting a named shading is mirrored. -/
theorem isMirrored_convertNamedShading (name : String) :
    IsMirrored (Walk.Forgets start) (convertNamedShading name) walk := by
  refine Walk.isMirrored_get_bind (fun _ _ => rfl) ?_
  split
  · exact isMirrored_pure _
  · refine Walk.isMirrored_modify_bind ?_ (fun _ => rfl) rfl
    refine isMirrored_lift_bind fun shading _ => ?_
    refine (Walk.isMirrored_onJob (Job.isMirrored_onDocument _)).bind fun gray _ _ => ?_
    exact (Walk.isMirrored_setResource _ _ _).bind fun _ _ _ => Walk.isMirrored_count _

/-- Converting a form is mirrored. -/
theorem isMirrored_convertForm (mirrors : convert.IsMirrored start selects) {form : ContentStream}
    (tells : ∀ selection, FormSelects convert selects form walk selection →
      selection.StillTells start.formerSpaces) :
    IsMirrored (Walk.Forgets start) (convertForm convert form) walk := by
  refine Walk.isMirrored_get_bind (fun _ _ => rfl) ?_
  refine isMirrored_lift_bind fun content isContent => isMirrored_lift_bind fun own isOwn => ?_
  cases own with
  | some own =>
      exact Walk.isMirrored_onJob (isMirrored_convertContent mirrors fun selection selected =>
        tells selection ⟨content, isContent, Or.inl ⟨own, isOwn, selected⟩⟩)
  | none =>
      refine (Walk.isMirrored_onScene (mirrors start.trail form.location content walk.toScene
        fun selection selected =>
          tells selection ⟨content, isContent, Or.inr ⟨isOwn, selected⟩⟩)).bind ?_
      intro ⟨bytes, names⟩ middle _
      refine Walk.isMirrored_modify_bind ?_ (fun _ => rfl) rfl
      exact Walk.isMirrored_get_bind (fun _ same => by simp only [same]) (isMirrored_pure _)

/-- Converting an external object is mirrored. -/
theorem isMirrored_convertXObject (mirrors : convert.IsMirrored start selects) {name : String}
    (tells : ∀ form selection, walk.scope.xobject name = .ok (.form form) →
      FormSelects convert selects form walk selection → selection.StillTells start.formerSpaces) :
    IsMirrored (Walk.Forgets start) (convertXObject convert name) walk := by
  refine Walk.isMirrored_get_bind (fun _ _ => rfl) ?_
  refine isMirrored_lift_bind fun xobject isXObject => ?_
  cases xobject with
  | image image =>
      refine (Walk.isMirrored_onJob (isMirrored_convertImage image)).bind fun gray _ _ => ?_
      cases gray with
      | some gray =>
          exact (Walk.isMirrored_setResource _ _ _).bind fun _ _ _ => Walk.isMirrored_count _
      | none => exact isMirrored_pure _
  | form form =>
      refine (isMirrored_convertForm mirrors fun selection selected =>
        tells form selection isXObject selected).bind fun gray _ _ => ?_
      exact (Walk.isMirrored_setResource _ _ _).bind fun _ _ _ => Walk.isMirrored_count _
  | other => exact isMirrored_pure _

/-- Converting a named external object is mirrored. -/
theorem isMirrored_convertNamedXObject (mirrors : convert.IsMirrored start selects) {name : String}
    (tells : ∀ selection, NamedXObjectSelects convert selects name walk selection →
      selection.StillTells start.formerSpaces) :
    IsMirrored (Walk.Forgets start) (convertNamedXObject convert name) walk := by
  refine Walk.isMirrored_get_bind (fun _ _ => rfl) ?_
  split
  · exact isMirrored_pure _
  · rename_i fresh
    refine Walk.isMirrored_modify_bind ?_ (fun _ => rfl) rfl
    refine (Walk.isMirrored_count _).bind fun _ noted done => ?_
    obtain rfl : walk.noteXObject name = noted := by
      cases done
      rfl
    exact isMirrored_convertXObject mirrors fun form selection isForm selected =>
      tells selection ⟨by simpa using fresh, form, isForm, selected⟩

/-- Converting the external objects that operands name is mirrored. -/
theorem isMirrored_convertXObjects (mirrors : convert.IsMirrored start selects)
    {operands : List Object}
    (tells : ∀ selection, XObjectsSelect convert selects operands walk selection →
      selection.StillTells start.formerSpaces) :
    IsMirrored (Walk.Forgets start) (convertXObjects convert operands) walk := by
  have named : IsMirrored (Walk.Forgets start) (operands.forM fun operand => do
      convertNamedXObject convert (← Operands.nameOf "Do" operand)) walk := by
    refine isMirrored_forM ?_ tells
    exact fun operand walk tells => isMirrored_lift_bind fun name isName =>
      isMirrored_convertNamedXObject mirrors fun selection selected =>
        tells selection ⟨name, isName, selected⟩
  unfold convertXObjects
  split
  · exact (isMirrored_throw _).bind fun _ _ done => (throw_eq_ok.1 done).elim
  · exact named

/-- Counting an operation is mirrored. -/
theorem isMirrored_counted (operation : Operation) :
    IsMirrored (Walk.Forgets start) (counted operation) walk :=
  (Walk.isMirrored_count _).bind fun _ _ _ => isMirrored_pure _

/-- Converting a color is mirrored. -/
theorem isMirrored_convertColor (mirrors : convert.IsMirrored start selects) {ink : Ink}
    (tells : ∀ name underlying selection, ink.color = .pattern name underlying →
      NamedPatternSelects convert selects name walk selection →
        selection.StillTells start.formerSpaces) :
    IsMirrored (Walk.Forgets start) (convertColor convert ink) walk := by
  unfold convertColor
  split
  · exact isMirrored_lift_bind fun color _ => isMirrored_pure _
  · rename_i name underlying isPattern
    refine (isMirrored_convertNamedPattern mirrors fun selection selected =>
      tells name underlying selection isPattern selected).bind fun _ _ _ => ?_
    dsimp only
    split
    · exact isMirrored_pure _
    · exact isMirrored_lift_bind fun color _ => isMirrored_pure _
    · exact isMirrored_throw _

/-- What is remembered of a name is what is remembered of the place where it stands. -/
theorem formerSpace?_of_location? {name : String} {location : Option EntryLocation}
    (located : scene.scope.location? .colorSpace name = .ok location) :
    formerSpace? scene name = .ok (location.bind scene.converter.formerSpaces.find?) := by
  unfold formerSpace?
  split
  · rename_i isNew
    have absent := Table.size_eq_zero.1 isNew
    cases location <;> simp [absent] <;> rfl
  · rw [located]
    rfl

/-- What a forgetful converter remembers of a name is what the other one does, or it is nothing, and
the other one remembers what was remembered at the start. -/
theorem formerSpace?_of_forgets {converter : Converter} {name : String}
    {former : Option (ColorSpace Float32 Float)} (forgets : start.Forgets scene.converter converter)
    (found : formerSpace? scene name = .ok former) :
    formerSpace? { scene with converter := converter } name = .ok former ∨
      formerSpace? { scene with converter := converter } name = .ok none ∧
        ∃ location space, former = some space ∧
          scene.scope.location? .colorSpace name = .ok (some location) ∧
          start.formerSpaces.find? location = some space := by
  by_cases isNew : scene.converter.formerSpaces.size = 0
  · -- The name need not stand anywhere, as neither converter looks for it.
    left
    rw [formerSpace?, if_pos isNew] at found
    rw [formerSpace?, if_pos (forgets.size_eq_zero isNew)]
    exact found
  · rw [formerSpace?, if_neg isNew, Outcome.bind_eq_ok] at found
    obtain ⟨location, located, same⟩ := found
    obtain rfl := Outcome.pure_eq_ok.1 same
    have inForgetful := formerSpace?_of_location?
      (show ({ scene with converter := converter } : Scene).scope.location? .colorSpace name = _
        from located)
    rw [inForgetful]
    cases location with
    | none => exact Or.inl rfl
    | some place =>
        dsimp only [Option.bind_some]
        rcases forgets.find?_cases place with same | ⟨forgot, space, isFormer, atStart⟩
        · exact Or.inl (congrArg Except.ok same)
        · exact Or.inr ⟨congrArg Except.ok forgot, place, space, isFormer, located, atStart⟩

/-- Noting the pattern space that was selected is mirrored if its name still tells what is
remembered. -/
theorem isMirrored_noteSpace {slot : Slot} {name : String}
    (tells : Selection.StillTells ⟨walk.scope, name⟩ start.formerSpaces)
    (current : ∀ space, walk.scope.colorSpace name = .ok space →
      walk.state.ink slot = .initial space) :
    IsMirrored (Walk.Forgets start) (noteSpace slot name) walk := by
  rintro _ ⟨⟩ after ⟨converter, forgets, rfl⟩ done
  simp only [noteSpace, bind_eq_ok, get_eq_ok, lift_eq_ok] at done ⊢
  obtain ⟨_, _, ⟨rfl, rfl⟩, former, _, ⟨isFormer, rfl⟩, done⟩ := done
  rcases formerSpace?_of_forgets forgets isFormer with same |
    ⟨forgot, location, space, rfl, atLocation, found⟩
  · refine ⟨{ after with converter := converter },
      ⟨_, _, ⟨rfl, rfl⟩, former, _, ⟨same, rfl⟩, ?_⟩, converter, ?_, rfl⟩
    all_goals cases former <;> cases done
    · rfl
    · rfl
    · exact forgets
    · exact forgets
  · -- What was forgotten is the space that the state selected anyway.
    have isCurrent : walk.state.setInk slot (.initial space) = walk.state := by
      obtain ⟨rfl, entry, isEntry, isGray⟩ := tells location space atLocation found
      rw [← current _ (colorSpace_of_gray isEntry isGray), setInk_ink]
    cases done
    refine ⟨_, ⟨_, _, ⟨rfl, rfl⟩, none, _, ⟨forgot, rfl⟩, rfl⟩, converter, forgets, ?_⟩
    simp only [isCurrent]

/-- A named pattern space that an operation selects is the current space after it. -/
theorem ink_of_follow {scope : Scope} {state after : GraphicsState} {operation : Operation}
    {slot : Slot} {name : String} {space : ColorSpace Float32 Float}
    (isSpace : Operator.ofKeyword operation.keyword = .setSpace slot)
    (named : Operands.singleName operation.keyword operation.operands = .ok name)
    (isNamed : name ≠ "Pattern") (pattern : (after.ink slot).space.isPattern = true)
    (followed : state.follow scope operation = .ok after)
    (found : scope.colorSpace name = .ok space) : after.ink slot = .initial space := by
  have own : (ColorSpace.ofName? name : Option (ColorSpace Float32 Float)) = none := by
    simp only [GraphicsState.follow, GraphicsState.apply, isSpace, Operator.slot?,
      GraphicsState.inkAfter, Outcome.bind_eq_ok, Outcome.pure_eq_ok] at followed
    obtain ⟨_, ⟨selected, isSelected, rfl⟩, rfl⟩ := followed
    rw [ink_setInk] at pattern
    exact (ownName_of_namedSpace isSelected named pattern).resolve_left isNamed
  obtain ⟨same, isFound, rfl⟩ := GraphicsState.follow_space_eq_ok isSpace named own followed
  rw [found] at isFound
  rw [ink_setInk, Except.ok.inj isFound]

/-- Selecting a color space is mirrored. -/
theorem isMirrored_convertSpace {state : GraphicsState} {slot : Slot} {operation : Operation}
    (isSpace : Operator.ofKeyword operation.keyword = .setSpace slot)
    (followed : state.follow walk.scope operation = .ok walk.state)
    (tells : ∀ selection, FollowedSelects convert selects operation walk selection →
      selection.StillTells start.formerSpaces) :
    IsMirrored (Walk.Forgets start) (convertSpace slot operation) walk := by
  refine Walk.isMirrored_get_bind (fun _ _ => rfl) ?_
  split
  · rename_i pattern
    refine isMirrored_lift_bind fun name named => ?_
    split
    · rename_i isNamed
      have selected : FollowedSelects convert selects operation walk ⟨walk.scope, name⟩ := by
        unfold FollowedSelects
        rw [isSpace]
        exact ⟨pattern, isNamed, named, rfl⟩
      refine (isMirrored_noteSpace (tells _ selected) fun space =>
        ink_of_follow isSpace named isNamed pattern followed).bind fun _ _ _ => isMirrored_pure _
    · exact isMirrored_pure _
  · exact isMirrored_counted _

/-- Setting a color of red, green and blue is mirrored. -/
theorem isMirrored_convertRgb (slot : Slot) (operation : Operation) :
    IsMirrored (Walk.Forgets start) (convertRgb slot operation) walk := by
  refine isMirrored_lift_bind fun _ _ => isMirrored_lift_bind fun values _ => ?_
  split
  · exact isMirrored_counted _
  · exact isMirrored_pure _

/-- Setting a color of four inks is mirrored. -/
theorem isMirrored_convertInks (slot : Slot) (operation : Operation) :
    IsMirrored (Walk.Forgets start) (convertInks slot operation) walk := by
  refine isMirrored_lift_bind fun _ _ => isMirrored_lift_bind fun values _ => ?_
  split
  · exact isMirrored_counted _
  · exact isMirrored_pure _

/-- Converting an operation that the graphics state has followed is mirrored. -/
theorem isMirrored_convertFollowed (mirrors : convert.IsMirrored start selects)
    {state : GraphicsState} {operation : Operation}
    (followed : state.follow walk.scope operation = .ok walk.state)
    (tells : ∀ selection, FollowedSelects convert selects operation walk selection →
      selection.StillTells start.formerSpaces) :
    IsMirrored (Walk.Forgets start) (convertFollowed convert operation) walk := by
  have color (slot : Slot) (isColor : ∀ name underlying selection,
        (walk.state.ink slot).color = .pattern name underlying →
          NamedPatternSelects convert selects name walk selection →
            FollowedSelects convert selects operation walk selection) :
      IsMirrored (Walk.Forgets start) (do
        let operands ← convertColor convert ((← get).state.ink slot)
        counted { operation with operands := operands }) walk := by
    refine Walk.isMirrored_get_bind (fun _ _ => rfl) ?_
    refine (isMirrored_convertColor mirrors fun name underlying selection isPattern selected =>
      tells selection (isColor name underlying selection isPattern selected)).bind ?_
    exact fun _ _ _ => isMirrored_counted _
  unfold convertFollowed
  cases isOperator : Operator.ofKeyword operation.keyword with
  | saveState | restoreState | setGray | other => exact isMirrored_pure _
  | setSpace slot => exact isMirrored_convertSpace isOperator followed tells
  | setColor slot | setPatternColor slot =>
      refine color slot fun name underlying selection isPattern selected => ?_
      unfold FollowedSelects
      rw [isOperator]
      exact ⟨name, underlying, isPattern, selected⟩
  | setRgb slot => exact isMirrored_convertRgb slot operation
  | setCmyk slot => exact isMirrored_convertInks slot operation
  | paintShading =>
      exact isMirrored_lift_bind fun name _ =>
        (isMirrored_convertNamedShading name).bind fun _ _ _ => isMirrored_pure _
  | inlineImage =>
      exact isMirrored_lift_bind fun image _ =>
        (Walk.isMirrored_onScene (isMirrored_convertInlineImage image)).bind fun _ _ _ =>
          isMirrored_pure _
  | paintXObject =>
      refine IsMirrored.bind (isMirrored_convertXObjects mirrors fun selection selected =>
        tells selection ?_) fun _ _ _ => isMirrored_pure _
      unfold FollowedSelects
      rw [isOperator]
      exact selected

/-- Converting an operation is mirrored. -/
theorem isMirrored_convertOperation (mirrors : convert.IsMirrored start selects)
    {operation : Operation}
    (tells : ∀ selection, OperationSelects convert selects operation walk selection →
      selection.StillTells start.formerSpaces) :
    IsMirrored (Walk.Forgets start) (convertOperation convert operation) walk := by
  refine Walk.isMirrored_get_bind (fun _ _ => rfl) (isMirrored_lift_bind fun state followed => ?_)
  refine Walk.isMirrored_modify_bind ?_ (fun _ => rfl) rfl
  exact isMirrored_convertFollowed mirrors followed fun selection selected =>
    tells selection ⟨state, followed, selected⟩

/-- Converting a stream in which streams are nested is mirrored. -/
theorem isMirrored_convertStream (start : Converter) (depth : Nat) :
    StreamConversion.IsMirrored start (convertStream depth) (StreamSelects depth) := by
  induction depth with
  | zero =>
      intro trail location content scene _
      exact Scene.isMirrored_get_bind (fun _ same => by simp only [same]) (isMirrored_throw _)
  | succ depth inductionHypothesis =>
      intro trail location content scene tells
      refine (Scene.isMirrored_inside fun inner entered => ?_).bind fun _ _ _ =>
        (Scene.isMirrored_onJob (Job.isMirrored_count _)).bind fun _ _ _ => isMirrored_pure _
      refine Walk.isMirrored_through (isMirrored_lift_bind fun operations isRead => ?_)
      have walking : ∀ selection : Selection, Happens (convertOperation (convertStream depth))
          (fun operation walk => OperationSelects (convertStream depth) (StreamSelects depth)
            operation walk selection) operations
          ⟨Scene.inside.setTrail inner scene, default, {}, {}, {}, {}⟩ →
            selection.StillTells start.formerSpaces := by
        refine fun selection happens => tells selection ⟨_, operations, ?_, isRead, happens⟩
        simp only [entering, entered]
        rfl
      have mirrors (trail : Trail) : StreamConversion.IsMirrored { start with trail := trail }
          (convertStream depth) (StreamSelects depth) := inductionHypothesis
      exact (isMirrored_mapM (fun operation walk tells =>
        isMirrored_convertOperation (mirrors inner) tells) walking).bind fun _ _ _ =>
          isMirrored_lift _

/-- Converting content is mirrored by a converter that forgets, as long as what it selects still
tells what is remembered of it. -/
theorem isMirrored_contentToGray {content : Bytes}
    (tells : ∀ selection, ContentSelects content scene selection →
      selection.StillTells start.formerSpaces) :
    IsMirrored (Scene.Forgets start) (contentToGray content) scene := by
  refine Scene.isMirrored_get_bind (fun _ same => by simp only [streamConversion, same]) ?_
  exact isMirrored_convertOwn (isMirrored_convertStream start _) tells

end Conversion
end Monochrome
