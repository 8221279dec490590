import Monochrome.Proofs.Conversion.Preserving

/-!
# The color spaces that a walk finds

A walk through content replaces what the content paints with, but no color space: pattern spaces
become gray after the walk.  So the color spaces of the resources are the same throughout, also when
forms are walked through that have no resources of their own.
-/

namespace Monochrome

/-- Whether resources have the same category of color spaces. -/
inductive Resources.SameSpaces : Resources → Resources → Prop
  /-- They are the same object. -/
  | indirect (target : ObjectId) : SameSpaces (.indirect target) (.indirect target)
  /-- They are dictionaries with the same entry for the category. -/
  | direct (before after : Dictionary)
      (same : after.get? "ColorSpace" = before.get? "ColorSpace") :
      SameSpaces (.direct before) (.direct after)

instance : IsPreorder Resources Resources.SameSpaces where
  refl resources := by
    cases resources with
    | indirect target => exact .indirect target
    | direct entries => exact .direct _ _ rfl
  trans _ _ _ early late := by
    cases early with
    | indirect target => exact late
    | direct before middle early =>
        cases late with
        | direct _ after late => exact .direct before after (late.trans early)

/-- Resources with the same category of color spaces have the same color spaces. -/
theorem Resources.SameSpaces.colorSpace_eq {resources others : Resources}
    (same : resources.SameSpaces others) (document : Document) (name : String) :
    Scope.colorSpace ⟨document, others⟩ name = Scope.colorSpace ⟨document, resources⟩ name := by
  cases same with
  | indirect target => rfl
  | direct before after same =>
      have sameCategory : Scope.category? ⟨document, .direct after⟩ .colorSpace =
          Scope.category? ⟨document, .direct before⟩ .colorSpace := by
        have isDirect (entries : Dictionary) :
            Scope.dictionary ⟨document, .direct entries⟩ = .ok entries := rfl
        simp only [Scope.category?, isDirect, Limited.ok_bind, ResourceKind.key, same]
      simp only [Scope.colorSpace, Scope.lookup?, sameCategory]

/-- Replacing what is painted with leaves the color spaces alone. -/
theorem Scope.sameSpaces_of_replace {scope changed : Scope} {kind : ResourceKind} {name : String}
    {value : Object} (isPainted : kind ≠ .colorSpace)
    (done : scope.replace kind name value = .ok changed) :
    scope.resources.SameSpaces changed.resources := by
  cases replaces_of_replace done with
  | object | category | stored => exact refl_of _ _
  | owned entries isDirect =>
      have differ : Bytes.ascii kind.key ≠ Bytes.ascii "ColorSpace" := by
        cases kind <;> first | contradiction | decide
      rw [isDirect]
      refine .direct _ _ ?_
      simp [enter, Dictionary.set, Dictionary.get?, differ]

open Change

variable {α : Type}

/-- Whether a step of a scene leaves the color spaces of the resources alone. -/
abbrev Scene.KeepsSpaces (step : Change Scene α) : Prop :=
  Respects (fun scene => scene.resources) Resources.SameSpaces step

/-- Whether a step of a walk leaves the color spaces of the resources alone. -/
abbrev Walk.KeepsSpaces (step : Change Walk α) : Prop :=
  Respects (fun walk => walk.resources) Resources.SameSpaces step

namespace Scene

/-- A change of the job leaves the resources alone. -/
theorem keepsSpaces_onJob (step : Change Job α) : KeepsSpaces (onJob step) := by
  have anything : Respects id (fun _ _ : Job => True) step := fun _ => trivial
  exact anything.within fun _ _ _ => refl_of _ _

/-- A change of the document leaves the resources alone. -/
theorem keepsSpaces_onDocument (step : StateM Document α) :
    KeepsSpaces (onScope (Scope.onDocument step)) :=
  fun _ => refl_of _ _

/-- A change inside a stream leaves alone what it would outside. -/
theorem keepsSpaces_inside {step : Change Scene α} (keeps : KeepsSpaces step)
    (location : Option ObjectId) : KeepsSpaces (inside location step) := by
  have keepsFrom (trail : Trail) (scene : Scene) := keeps (inside.setTrail trail scene)
  intro scene
  unfold outcome EStateM.run inside
  split
  · rename_i value after done
    split at done
    · cases done
    · rename_i trail _
      have related := keepsFrom trail scene
      split at done
      · rename_i atStep
        obtain ⟨_, rfl⟩ := EStateM.Result.ok.inj done
        simp only [outcome, EStateM.run, atStep] at related
        exact related
      · cases done
  · rename_i fault after failed
    split at failed
    · obtain ⟨_, rfl⟩ := EStateM.Result.error.inj failed
      exact refl_of _ _
    · rename_i trail _
      have related := keepsFrom trail scene
      split at failed
      · cases failed
      · rename_i atStep
        obtain ⟨_, rfl⟩ := EStateM.Result.error.inj failed
        simp only [outcome, EStateM.run, atStep] at related
        exact related

end Scene

namespace Walk

/-- A change of the scene leaves alone in a walk what it leaves alone. -/
theorem keepsSpaces_onScene {step : Change Scene α} (keeps : Scene.KeepsSpaces step) :
    KeepsSpaces (onScene step) :=
  Respects.within keeps fun _ _ related => related

/-- A change of the job leaves the resources alone. -/
theorem keepsSpaces_onJob (step : Change Job α) : KeepsSpaces (onJob step) :=
  keepsSpaces_onScene (Scene.keepsSpaces_onJob step)

/-- Putting something in the place of what is painted with leaves the color spaces alone. -/
theorem keepsSpaces_setResource {kind : ResourceKind} (isPainted : kind ≠ .colorSpace)
    (name : String) (value : Object) : KeepsSpaces (setResource kind name value) := by
  have keeps : Respects Scope.resources Resources.SameSpaces (Scope.set kind name value) := by
    refine respects_of ?_ ?_
    · intro scope done after stored
      exact Scope.sameSpaces_of_replace isPainted (Scope.replace_of_set_eq_ok stored)
    · intro scope fault after failed
      rw [Scope.eq_of_set_eq_error failed]
      exact refl_of _ _
  exact keepsSpaces_onScene (Respects.within keeps fun _ _ related => related)

/-- Changing anything but the scene leaves the resources alone. -/
theorem keepsSpaces_modify {change : Walk → Walk}
    (same : ∀ walk, (change walk).resources = walk.resources) :
    KeepsSpaces (modify change : Change Walk PUnit) :=
  respects_modify fun walk => by
    rw [same walk]
    exact refl_of _ _

/-- Going through a stream leaves alone what it does as a walk. -/
theorem keepsSpaces_through {step : Change Walk α} (keeps : KeepsSpaces step) :
    Scene.KeepsSpaces (through step) := by
  intro scene
  have related := keeps ⟨scene, default, {}, {}, {}, {}⟩
  unfold outcome EStateM.run at related ⊢
  unfold through
  cases atStep : step ⟨scene, default, {}, {}, {}, {}⟩ with
  | ok value after => simpa [atStep] using related
  | error fault after => simpa [atStep] using related

end Walk

namespace Conversion

/-- Whether every stream is converted with the color spaces of its resources left alone. -/
def StreamConversion.KeepsSpaces (convert : StreamConversion) : Prop :=
  ∀ location content, Scene.KeepsSpaces (convert location content)

variable {convert : StreamConversion}

/-- A named pattern is converted with the color spaces left alone. -/
theorem keepsSpaces_convertNamedPattern (convert : StreamConversion) (name : String) :
    Walk.KeepsSpaces (convertNamedPattern convert name) := by
  refine respects_get.bind fun walk => ?_
  split
  · exact respects_pure _
  · refine Respects.bind (Walk.keepsSpaces_modify fun _ => by rfl) fun _ => ?_
    refine (respects_lift _).bind fun pattern => (Walk.keepsSpaces_onJob _).bind fun gray => ?_
    exact (Walk.keepsSpaces_setResource (by decide) _ _).bind fun _ => Walk.keepsSpaces_onJob _

/-- A named shading is converted with the color spaces left alone. -/
theorem keepsSpaces_convertNamedShading (name : String) :
    Walk.KeepsSpaces (convertNamedShading name) := by
  refine respects_get.bind fun walk => ?_
  split
  · exact respects_pure _
  · refine Respects.bind (Walk.keepsSpaces_modify fun _ => by rfl) fun _ => ?_
    refine (respects_lift _).bind fun shading => (Walk.keepsSpaces_onJob _).bind fun gray => ?_
    exact (Walk.keepsSpaces_setResource (by decide) _ _).bind fun _ => Walk.keepsSpaces_onJob _

/-- An inline image is converted with the color spaces left alone. -/
theorem keepsSpaces_convertInlineImage (image : Stream) :
    Scene.KeepsSpaces (convertInlineImage image) := by
  refine respects_get.bind fun scene => ?_
  split
  · exact respects_pure _
  · refine (respects_lift _).bind fun space => (respects_lift _).bind fun task => ?_
    cases task with
    | keep => exact respects_pure _
    | replaceSpace gray => exact (Scene.keepsSpaces_onDocument _).bind fun _ => respects_pure _
    | replaceSamples space encoder =>
        refine (respects_lift _).bind fun samples => (respects_lift _).bind fun colors => ?_
        exact (Scene.keepsSpaces_onJob _).bind fun _ => respects_lift _

/-- An operation is counted with the color spaces left alone. -/
theorem keepsSpaces_counted (operation : Operation) : Walk.KeepsSpaces (counted operation) :=
  (Walk.keepsSpaces_onJob _).bind fun _ => respects_pure _

/-- A color is converted with the color spaces left alone. -/
theorem keepsSpaces_convertColor (convert : StreamConversion) (ink : Ink) :
    Walk.KeepsSpaces (convertColor convert ink) := by
  unfold convertColor
  split
  · exact (respects_lift _).bind fun color => respects_pure _
  · refine (keepsSpaces_convertNamedPattern convert _).bind fun _ => ?_
    dsimp only
    split
    · exact respects_pure _
    · exact (respects_lift _).bind fun color => respects_pure _
    · exact respects_throw _

/-- Selecting a color space leaves the color spaces alone. -/
theorem keepsSpaces_convertSpace (slot : Slot) (operation : Operation) :
    Walk.KeepsSpaces (convertSpace slot operation) := by
  refine respects_get.bind fun walk => ?_
  split
  · refine (respects_lift _).bind fun name => ?_
    have noted : Walk.KeepsSpaces (noteSpace slot name) := by
      refine respects_get.bind fun walk => (respects_lift _).bind fun former => ?_
      have inserts : Walk.KeepsSpaces (modify fun walk : Walk =>
          { walk with patternSpaces := walk.patternSpaces.insert name }) :=
        Walk.keepsSpaces_modify fun _ => rfl
      cases former with
      | some former => exact Respects.bind (Walk.keepsSpaces_modify fun _ => by rfl) fun _ => inserts
      | none => exact inserts
    split
    · exact noted.bind fun _ => respects_pure _
    · exact respects_pure _
  · exact keepsSpaces_counted _

section Nested

variable (keeps : convert.KeepsSpaces)
include keeps

/-- A form is converted with the color spaces left alone. -/
theorem keepsSpaces_convertForm (form : ContentStream) :
    Walk.KeepsSpaces (convertForm convert form) := by
  refine respects_get.bind fun walk => (respects_lift _).bind fun content => ?_
  refine (respects_lift _).bind fun own => ?_
  cases own with
  | some own => exact Walk.keepsSpaces_onJob _
  | none =>
      refine (Walk.keepsSpaces_onScene (keeps form.location content)).bind fun converted => ?_
      refine Respects.bind (Walk.keepsSpaces_modify fun _ => by rfl) fun _ => ?_
      exact respects_get.bind fun _ => respects_pure _

/-- A named external object is converted with the color spaces left alone. -/
theorem keepsSpaces_convertNamedXObject (name : String) :
    Walk.KeepsSpaces (convertNamedXObject convert name) := by
  have puts (stream : Stream) (change : Statistics → Statistics) : Walk.KeepsSpaces (do
      Walk.setResource .xobject name stream.toObject
      Walk.onJob (Job.count change)) :=
    (Walk.keepsSpaces_setResource (by decide) _ _).bind fun _ => Walk.keepsSpaces_onJob _
  refine respects_get.bind fun walk => ?_
  split
  · exact respects_pure _
  · refine Respects.bind (Walk.keepsSpaces_modify fun _ => by rfl) fun _ => ?_
    refine (Walk.keepsSpaces_onJob _).bind fun _ => respects_get.bind fun walk => ?_
    refine (respects_lift _).bind fun xobject => ?_
    cases xobject with
    | image image =>
        refine (Walk.keepsSpaces_onJob _).bind fun gray => ?_
        cases gray with
        | some gray => exact puts gray _
        | none => exact respects_pure _
    | form form => exact (keepsSpaces_convertForm keeps form).bind fun gray => puts gray.stream _
    | other => exact respects_pure _

/-- The external objects of operands are converted with the color spaces left alone. -/
theorem keepsSpaces_convertXObjects (operands : List Object) :
    Walk.KeepsSpaces (convertXObjects convert operands) := by
  have named : Walk.KeepsSpaces (operands.forM fun operand => do
      convertNamedXObject convert (← Operands.nameOf "Do" operand)) :=
    respects_forM (fun operand => (respects_lift _).bind fun name =>
      keepsSpaces_convertNamedXObject keeps name) operands
  unfold convertXObjects
  split
  · exact (respects_throw _).bind fun _ => named
  · exact named

/-- An operation is converted with the color spaces left alone. -/
theorem keepsSpaces_convertOperation (operation : Operation) :
    Walk.KeepsSpaces (convertOperation convert operation) := by
  have color (slot : Slot) : Walk.KeepsSpaces (do
      let operands ← convertColor convert ((← get).state.ink slot)
      counted { operation with operands := operands }) :=
    respects_get.bind fun walk => (keepsSpaces_convertColor convert _).bind fun operands =>
      keepsSpaces_counted _
  refine respects_get.bind fun walk => (respects_lift _).bind fun state => ?_
  refine Respects.bind (Walk.keepsSpaces_modify fun _ => by rfl) fun _ => ?_
  unfold convertFollowed
  cases Operator.ofKeyword operation.keyword with
  | saveState | restoreState | setGray | other => exact respects_pure _
  | setSpace slot => exact keepsSpaces_convertSpace slot operation
  | setColor slot | setPatternColor slot => exact color slot
  | setRgb slot | setCmyk slot =>
      refine (respects_lift _).bind fun _ => (respects_lift _).bind fun values => ?_
      split
      · exact keepsSpaces_counted _
      · exact respects_pure _
  | paintShading =>
      exact (respects_lift _).bind fun name =>
        (keepsSpaces_convertNamedShading name).bind fun _ => respects_pure _
  | inlineImage =>
      exact (respects_lift _).bind fun image =>
        (Walk.keepsSpaces_onScene (keepsSpaces_convertInlineImage image)).bind fun _ =>
          respects_pure _
  | paintXObject =>
      exact (keepsSpaces_convertXObjects keeps _).bind fun _ => respects_pure _

end Nested

/-- A stream in which streams are nested is converted with the color spaces left alone. -/
theorem keepsSpaces_convertStream (depth : Nat) : (convertStream depth).KeepsSpaces := by
  induction depth with
  | zero =>
      intro location content
      exact respects_get.bind fun scene => respects_throw _
  | succ depth inductionHypothesis =>
      intro location content
      have walks : Walk.KeepsSpaces (convertOperations (convertStream depth) content) :=
        (respects_lift _).bind fun operations =>
          (respects_mapM (keepsSpaces_convertOperation inductionHypothesis) operations).bind
            fun converted => respects_lift _
      refine (Scene.keepsSpaces_inside (Walk.keepsSpaces_through walks) location).bind fun _ => ?_
      exact (Scene.keepsSpaces_onJob _).bind fun _ => respects_pure _

end Conversion
end Monochrome
