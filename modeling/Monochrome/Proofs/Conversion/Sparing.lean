import Monochrome.Proofs.Conversion.Preserving
import Monochrome.Proofs.Conversion.Using
import Monochrome.Proofs.Detection.Left
import Monochrome.Proofs.Framing
import Monochrome.Proofs.Object.Sparing

/-!
# A conversion changes only what is used

Whether it succeeds or fails, a conversion changes no object of a document but those that it reaches
through the resources that it uses.  It removes none, and what it adds gets numbers above all others.
Each step of the conversion spares what is not touched, provided that all it uses reaches only what
is; the pattern spaces that it notes are then those that the operations name.
-/

namespace Monochrome
open Change

variable {touched : ObjectId → Prop} {named : String → Prop}

/-- Whether the use of a resource may happen if only some objects may be touched, and only some
pattern spaces may be named. -/
structure Use.Allowed (touched : ObjectId → Prop) (named : String → Prop) (owner : Owner)
    (use : Use) : Prop where
  reaches : ∀ target, use.Reaches target → touched target
  named : owner = .outer → use.kind = .colorSpace → named use.name

/-- What a walk does if only some objects may be touched, and only some pattern spaces may be
named. -/
structure Walk.Spares (touched : ObjectId → Prop) (named : String → Prop) (before after : Walk) :
    Prop where
  document : before.document.Spares touched after.document
  names : ∀ name ∈ after.patternSpaces.toList, name ∈ before.patternSpaces.toList ∨ named name

instance : IsPreorder Walk (Walk.Spares touched named) where
  refl _ := ⟨refl_of _ _, fun _ known => Or.inl known⟩
  trans _ _ _ early late :=
    { document := trans_of _ early.document late.document
      names := fun name known => (late.names name known).elim (early.names name) Or.inr }

/-- Whether a step of a job spares what is not touched. -/
abbrev Job.SparesAt (touched : ObjectId → Prop) (step : Change Job α) (job : Job) : Prop :=
  RespectsAt Job.document (Document.Spares touched) step job

/-- Whether a step of a scene spares what is not touched. -/
abbrev Scene.SparesAt (touched : ObjectId → Prop) (step : Change Scene α) (scene : Scene) : Prop :=
  RespectsAt (fun scene => scene.document) (Document.Spares touched) step scene

/-- Whether a step of a walk spares what is not touched, and notes only what is named. -/
abbrev Walk.SparesAt (touched : ObjectId → Prop) (named : String → Prop) (step : Change Walk α)
    (walk : Walk) : Prop :=
  RespectsAt id (Walk.Spares touched named) step walk

/-! ## Steps -/

/-- What only adds spares everything. -/
theorem OnlyAdds.spares {step : StateM Document α} (onlyAdds : OnlyAdds step) :
    Respects id (Document.Spares touched) (Change.always id (fun document _ => document) step) :=
  fun document => onlyAdds (document.Spares touched)
    (fun _ value spares => trans_of _ spares (Document.spares_add value)) document (refl_of _ _)

/-- Making a shading gray spares everything. -/
theorem Shading.spares_toGray (shading : Object) :
    Respects id (Document.Spares touched) (toGray shading) := by
  refine respects_get.bind fun document => (respects_lift _).bind fun ⟨gray, _⟩ => ?_
  exact (ColorSpace.onlyAdds_toObject gray).spares.bind fun _ => respects_pure _

/-- Putting a value in the place of a resource spares what its use does not reach. -/
theorem Scope.sparesAt_set {scope : Scope} {kind : ResourceKind} {name : String} (value : Object)
    (reaches : ∀ target, (Use.mk scope kind name).Reaches target → touched target) :
    RespectsAt document (Document.Spares touched) (set kind name value) scope := by
  apply respectsAt_of
  · intro _ changed done
    cases replaces_of_replace (replace_of_set_eq_ok done) with
    | object entry target found isTarget =>
        obtain ⟨_, _, _, _, _, resolved⟩ := lookup?_eq_some.1 found
        rw [isTarget] at resolved
        exact Document.spares_store value (Document.find?_of_resolveWithId resolved)
          (reaches _ (.resource entry target found isTarget))
    | category owner category hasCategory =>
        exact Document.spares_store _ hasCategory.stored
          (reaches _ (.category owner category hasCategory))
    | stored owner target entries isIndirect fetched =>
        exact Document.spares_store _ (Document.fetchWithId_eq_ok fetched).2
          (reaches _ (.dictionary owner target entries isIndirect fetched))
    | owned => exact refl_of _ _
  · intro fault changed failed
    rw [eq_of_set_eq_error failed]
    exact refl_of _ _

namespace Job

/-- A change of the document spares what it does there. -/
theorem sparesAt_onDocument {step : Change Document α} {job : Job}
    (spares : RespectsAt id (Document.Spares touched) step job.document) :
    SparesAt touched (onDocument step) job :=
  spares.within fun _ related => related

/-- Counting spares everything. -/
theorem sparesAt_count (change : Statistics → Statistics) (job : Job) :
    SparesAt touched (count change) job :=
  refl_of (Document.Spares touched) _

/-- A change under other resources spares what it would in a scene. -/
theorem sparesAt_withResources {step : Change Scene α} {resources : Resources} {job : Job}
    (spares : Scene.SparesAt touched step ⟨job, resources⟩) :
    SparesAt touched (withResources resources step) job := by
  unfold Scene.SparesAt RespectsAt outcome EStateM.run at spares
  unfold SparesAt RespectsAt outcome EStateM.run withResources
  cases done : step ⟨job, resources⟩ <;> simpa only [done] using spares

end Job

namespace Scene

/-- A change of the document or the resources spares what it does there. -/
theorem sparesAt_onScope {step : Change Scope α} {scene : Scene}
    (spares : RespectsAt Scope.document (Document.Spares touched) step scene.scope) :
    SparesAt touched (onScope step) scene :=
  spares.within fun _ related => related

/-- A change of the job spares what it does there. -/
theorem sparesAt_onJob {step : Change Job α} {scene : Scene}
    (spares : Job.SparesAt touched step scene.toJob) : SparesAt touched (onJob step) scene :=
  spares.within fun _ related => related

end Scene

namespace Walk

/-- A change of the scene spares what it does there, and notes nothing. -/
theorem sparesAt_onScene {step : Change Scene α} {walk : Walk}
    (spares : Scene.SparesAt touched step walk.toScene) :
    SparesAt touched named (onScene step) walk :=
  spares.within fun _ related => ⟨related, fun _ known => Or.inl known⟩

/-- A change of the job spares what it does there, and notes nothing. -/
theorem sparesAt_onJob {step : Change Job α} {walk : Walk}
    (spares : Job.SparesAt touched step walk.toJob) : SparesAt touched named (onJob step) walk :=
  sparesAt_onScene (Scene.sparesAt_onJob spares)

/-- Replacing a resource spares what its use does not reach. -/
theorem sparesAt_setResource {kind : ResourceKind} {name : String} {walk : Walk} (value : Object)
    {owner : Owner} (allowed : Use.Allowed touched named owner ⟨walk.scope, kind, name⟩) :
    SparesAt touched named (setResource kind name value) walk :=
  sparesAt_onScene (Scene.sparesAt_onScope (Scope.sparesAt_set value allowed.reaches))

/-- Counting spares everything. -/
theorem sparesAt_count (change : Statistics → Statistics) (walk : Walk) :
    SparesAt touched named (onJob (Job.count change)) walk :=
  sparesAt_onJob (Job.sparesAt_count change _)

/-- What a walk notes besides pattern spaces touches nothing. -/
theorem spares_of_eq {walk other : Walk} (sameDocument : other.document = walk.document)
    (sameNames : other.patternSpaces = walk.patternSpaces) : walk.Spares touched named other where
  document := sameDocument ▸ refl_of (Document.Spares touched) walk.document
  names _ known := Or.inl (sameNames ▸ known)

end Walk

namespace Conversion

/-- Whether every stream is converted with what its uses do not reach spared, and with only those
pattern spaces noted that its own operations name. -/
structure StreamConversion.SparesUnused (convert : StreamConversion) (uses : StreamUse) : Prop where
  spares : ∀ touched location content scene,
    (∀ owner use target, uses location content scene owner use → use.Reaches target →
      touched target) →
    Scene.SparesAt touched (convert location content) scene
  names : ∀ location content scene bytes names left,
    convert location content scene = .ok (bytes, names) left →
    ∀ name ∈ names.toList, ∃ moment, uses location content scene .outer ⟨moment, .colorSpace, name⟩

variable {convert : StreamConversion} {uses : StreamUse}

/-- Making a pattern space gray spares what its use does not reach. -/
theorem sparesAt_convertPatternSpace {name : String} {scene : Scene}
    (reaches : ∀ target, (Use.mk scene.scope .colorSpace name).Reaches target → touched target) :
    Scene.SparesAt touched (convertPatternSpace name) scene := by
  have settles : Scene.SparesAt touched
      (Scene.onScope (Scope.setColorSpace name (.patternOver .deviceGray))) scene :=
    Scene.sparesAt_onScope (Scope.sparesAt_set grayPatternSpace reaches)
  unfold convertPatternSpace
  refine respectsAt_get_bind (respectsAt_lift_bind fun location _ => ?_)
  split
  · exact respectsAt_pure _ _
  · refine respectsAt_lift_bind fun space _ => ?_
    split
    · refine settles.bind fun _ after _ => ?_
      cases location with
      | some location => exact refl_of (Document.Spares touched) after.document
      | none => exact respectsAt_pure _ _
    · exact respectsAt_pure _ _

/-- Converting the content of a stream and its pattern spaces spares what its uses do not reach. -/
theorem sparesAt_convertOwn (unused : convert.SparesUnused uses) {location : Option ObjectId}
    {content : Bytes} {scene : Scene}
    (reaches : ∀ use target, OwnUses convert uses location content scene use →
      use.Reaches target → touched target) :
    Scene.SparesAt touched (convertOwn convert location content) scene := by
  have spares := unused.spares touched location content scene
    fun owner use target used => reaches use target (Or.inl ⟨owner, used⟩)
  refine spares.bind fun ⟨bytes, names⟩ left done => ?_
  have isNamed := unused.names location content scene bytes names left done
  have settles : Scene.SparesAt touched (names.toList.forM convertPatternSpace) left := by
    refine respectsAt_forM _ _ (fun name known settling allowed => ?_) fun use happens target =>
      reaches use target (Or.inr ⟨bytes, names, left, done, happens⟩)
    exact sparesAt_convertPatternSpace (allowed _ ⟨rfl, isNamed name known⟩)
  exact settles.bind fun _ _ _ => respectsAt_pure _ _

/-- Converting a stream under resources of its own spares what its uses do not reach. -/
theorem sparesAt_convertContent (unused : convert.SparesUnused uses) {source : ContentStream}
    {content : Bytes} {own : Resources} {job : Job}
    (reaches : ∀ use target, OwnUses convert uses source.location content ⟨job, own⟩ use →
      use.Reaches target → touched target) :
    Job.SparesAt touched (convertContent convert source content own) job := by
  refine (Job.sparesAt_withResources (sparesAt_convertOwn unused reaches)).bind
    fun ⟨content, own⟩ after _ => respectsAt_get_bind ?_
  cases own <;> exact respectsAt_pure _ _

/-- Converting a pattern spares what the uses of its cell do not reach, but for the shading behind a
shading pattern. -/
theorem sparesAt_convertPattern (unused : convert.SparesUnused uses) {pattern : Pattern} {job : Job}
    (reaches : ∀ use target, PatternUses convert uses pattern job use → use.Reaches target →
      touched target)
    (behind : ∀ entries shading target, pattern = .shading entries shading (some target) →
      job.document.find? target = some shading ∧ touched target) :
    Job.SparesAt touched (convertPattern convert pattern) job := by
  unfold convertPattern
  cases pattern with
  | tiling cell paintType =>
      dsimp only
      split
      · rename_i setsColors
        refine respectsAt_get_bind (respectsAt_lift_bind fun content isContent => ?_)
        refine respectsAt_lift_bind fun own areResources => ?_
        have converts := sparesAt_convertContent unused fun use target used => reaches use target
          ⟨cell, paintType, content, own, rfl, setsColors, isContent, areResources, used⟩
        exact converts.bind fun _ _ _ => respectsAt_pure _ _
      · exact respectsAt_pure _ _
  | shading entries shading location =>
      have toGray : Job.SparesAt touched (Job.onDocument (Shading.toGray shading)) job :=
        Job.sparesAt_onDocument (Shading.spares_toGray shading _)
      intro isNumbered
      refine toGray.bind (fun gray after done => ?_) isNumbered
      cases location with
      | none => exact respectsAt_pure _ _
      | some target =>
          obtain ⟨stored, isTouched⟩ := behind entries shading target rfl
          obtain ⟨now, stillStored, _⟩ := (toGray.of_ok done isNumbered).kept target shading stored
          have replaces : Job.SparesAt touched
              (Job.onDocument (modify fun document => document.store target gray)) after :=
            Job.sparesAt_onDocument (Document.spares_store gray stillStored isTouched)
          exact replaces.bind fun _ _ _ => respectsAt_pure _ _

/-- The shading behind a shading pattern that is read is stored where the pattern says. -/
theorem find?_of_pattern {scope : Scope} {name : String} {entries : Dictionary} {shading : Object}
    {target : ObjectId} (read : scope.pattern name = .ok (.shading entries shading (some target))) :
    scope.document.find? target = some shading := by
  simp only [Scope.pattern, Outcome.bind_eq_ok, Pattern.read] at read
  obtain ⟨entry, _, read⟩ := read
  split at read
  · simp only [Outcome.bind_eq_ok] at read
    obtain ⟨patternType, _, read⟩ := read
    split at read
    · simp only [Outcome.bind_eq_ok, Outcome.pure_eq_ok] at read
      obtain ⟨_, _, same⟩ := read
      cases same
    · simp only [Pattern.readShading] at read
      split at read
      · simp only [Outcome.bind_eq_ok, Outcome.pure_eq_ok] at read
        obtain ⟨⟨location, value⟩, resolved, same⟩ := read
        obtain ⟨rfl, rfl, rfl⟩ := Pattern.shading.inj same
        exact Document.find?_of_resolveWithId resolved
      · simp [Outcome.throw_eq_ok] at read
    · simp [Outcome.throw_eq_ok] at read
  · simp [Outcome.throw_eq_ok] at read

/-- Converting a named pattern spares what its uses do not reach. -/
theorem sparesAt_convertNamedPattern (unused : convert.SparesUnused uses) {name : String}
    {walk : Walk}
    (allowed : ∀ owner use, NamedPatternUses convert uses name walk owner use →
      use.Allowed touched named owner) :
    Walk.SparesAt touched named (convertNamedPattern convert name) walk := by
  unfold convertNamedPattern
  refine respectsAt_get_bind ?_
  split
  · exact respectsAt_pure _ _
  · rename_i isOld
    have isNew : walk.patterns.contains name = false := by simpa using isOld
    refine respectsAt_modify_bind (Walk.spares_of_eq rfl rfl) ?_
    refine respectsAt_lift_bind fun pattern isPattern => ?_
    have converts : Walk.SparesAt touched named (Walk.onJob (convertPattern convert pattern))
        (walk.notePattern name) := by
      refine Walk.sparesAt_onJob (sparesAt_convertPattern unused (fun use target used => ?_)
        fun entries shading target same => ?_)
      · exact (allowed _ use (.cell pattern use isNew isPattern used)).reaches target
      · rw [same] at isPattern
        exact ⟨find?_of_pattern isPattern,
          (allowed _ _ (.read isNew)).reaches _ (.shading entries shading target rfl isPattern)⟩
    refine converts.bind fun gray after done => ?_
    refine (Walk.sparesAt_setResource _
      (allowed _ _ (.replaced pattern gray after isNew isPattern done))).bind fun _ _ _ => ?_
    exact Walk.sparesAt_count _ _

/-- Converting a named shading spares what its use does not reach. -/
theorem sparesAt_convertNamedShading {name : String} {walk : Walk}
    (allowed : ∀ owner use, NamedShadingUses name walk owner use →
      use.Allowed touched named owner) :
    Walk.SparesAt touched named (convertNamedShading name) walk := by
  unfold convertNamedShading
  refine respectsAt_get_bind ?_
  split
  · exact respectsAt_pure _ _
  · rename_i isOld
    have isNew : walk.shadings.contains name = false := by simpa using isOld
    refine respectsAt_modify_bind (Walk.spares_of_eq rfl rfl) ?_
    refine respectsAt_lift_bind fun shading isShading => ?_
    have converts : Walk.SparesAt touched named
        (Walk.onJob (Job.onDocument (Shading.toGray shading))) (walk.noteShading name) :=
      Walk.sparesAt_onJob (Job.sparesAt_onDocument (Shading.spares_toGray shading _))
    refine converts.bind fun gray after done => ?_
    refine (Walk.sparesAt_setResource _
      (allowed _ _ (.replaced shading gray after isNew isShading done))).bind fun _ _ _ => ?_
    exact Walk.sparesAt_count _ _

/-- Converting an image spares everything. -/
theorem sparesAt_convertImage (image : Stream) (job : Job) :
    Job.SparesAt touched (convertImage image) job := by
  unfold convertImage
  refine respectsAt_get_bind (respectsAt_lift_bind fun isMask _ => ?_)
  split
  · exact respectsAt_pure _ _
  · refine respectsAt_lift_bind fun space _ => respectsAt_lift_bind fun task _ => ?_
    cases task with
    | keep => exact respectsAt_pure _ _
    | replaceSpace gray =>
        have stores : Job.SparesAt touched
            (Job.onDocument (Change.always id (fun document _ => document) gray.toObject)) job :=
          Job.sparesAt_onDocument ((ColorSpace.onlyAdds_toObject gray).spares _)
        exact stores.bind fun _ _ _ => respectsAt_pure _ _
    | replaceSamples space encoder =>
        refine respectsAt_lift_bind fun samples _ => respectsAt_lift_bind fun colors _ => ?_
        exact respectsAt_lift_bind fun encoded _ => respectsAt_pure _ _

/-- Converting an inline image spares everything. -/
theorem sparesAt_convertInlineImage (image : Stream) (scene : Scene) :
    Scene.SparesAt touched (convertInlineImage image) scene := by
  unfold convertInlineImage
  refine respectsAt_get_bind ?_
  split
  · exact respectsAt_pure _ _
  · refine respectsAt_lift_bind fun space _ => respectsAt_lift_bind fun task _ => ?_
    cases task with
    | keep => exact respectsAt_pure _ _
    | replaceSpace gray =>
        have stores : Scene.SparesAt touched
            (Scene.onScope (Scope.onDocument gray.toObject)) scene :=
          Scene.sparesAt_onScope ((ColorSpace.onlyAdds_toObject gray).spares scene.document)
        exact stores.bind fun _ _ _ => respectsAt_pure _ _
    | replaceSamples space encoder =>
        refine respectsAt_lift_bind fun samples _ => respectsAt_lift_bind fun colors _ => ?_
        exact (Scene.sparesAt_onJob (Job.sparesAt_count _ _)).bind fun _ _ _ => respectsAt_lift _ _

/-- Converting a form spares what its uses do not reach. -/
theorem sparesAt_convertForm (unused : convert.SparesUnused uses) {form : ContentStream}
    {walk : Walk}
    (allowed : ∀ owner use, FormUses convert uses form walk owner use →
      use.Allowed touched named owner) :
    Walk.SparesAt touched named (convertForm convert form) walk := by
  unfold convertForm
  refine respectsAt_get_bind (respectsAt_lift_bind fun content isContent => ?_)
  refine respectsAt_lift_bind fun own areResources => ?_
  cases own with
  | some own =>
      exact Walk.sparesAt_onJob (sparesAt_convertContent unused fun use target used =>
        (allowed _ use (.own content own use isContent areResources used)).reaches target)
  | none =>
      have converts : Walk.SparesAt touched named
          (Walk.onScene (convert form.location content)) walk :=
        Walk.sparesAt_onScene (unused.spares touched _ _ _ fun owner use target used =>
          (allowed owner use (.shared content owner use isContent areResources used)).reaches target)
      refine converts.bind fun ⟨bytes, names⟩ after done => ?_
      obtain ⟨scene, converted, rfl⟩ := within_eq_ok.1 done
      have isNamed (name : String) (known : name ∈ names.toList) : named name := by
        obtain ⟨moment, used⟩ := unused.names _ _ _ _ _ _ converted name known
        exact (allowed _ _ (.shared content _ _ isContent areResources used)).named rfl rfl
      refine respectsAt_modify_bind ⟨refl_of (Document.Spares touched) _, fun name known => ?_⟩ ?_
      · exact (Names.mem_union.1 known).imp_right (isNamed name)
      · exact respectsAt_get_bind (respectsAt_pure _ _)

/-- Converting an external object spares what its uses do not reach. -/
theorem sparesAt_convertXObject (unused : convert.SparesUnused uses) {name : String} {walk : Walk}
    (allowed : ∀ owner use, XObjectUses convert uses name walk owner use →
      use.Allowed touched named owner) :
    Walk.SparesAt touched named (convertXObject convert name) walk := by
  unfold convertXObject
  refine respectsAt_get_bind (respectsAt_lift_bind fun xobject isXObject => ?_)
  cases xobject with
  | image image =>
      have converts : Walk.SparesAt touched named (Walk.onJob (convertImage image)) walk :=
        Walk.sparesAt_onJob (sparesAt_convertImage image _)
      refine converts.bind fun gray after done => ?_
      cases gray with
      | none => exact respectsAt_pure _ _
      | some gray =>
          refine (Walk.sparesAt_setResource _
            (allowed _ _ (.image image gray after isXObject done))).bind fun _ _ _ => ?_
          exact Walk.sparesAt_count _ _
  | form form =>
      have converts := sparesAt_convertForm unused fun owner use used =>
        allowed owner use (.form form owner use isXObject used)
      refine converts.bind fun gray after done => ?_
      refine (Walk.sparesAt_setResource _
        (allowed _ _ (.replaced form gray after isXObject done))).bind fun _ _ _ => ?_
      exact Walk.sparesAt_count _ _
  | other => exact respectsAt_pure _ _

/-- Converting a named external object spares what its uses do not reach. -/
theorem sparesAt_convertNamedXObject (unused : convert.SparesUnused uses) {name : String}
    {walk : Walk}
    (allowed : ∀ owner use, NamedXObjectUses convert uses name walk owner use →
      use.Allowed touched named owner) :
    Walk.SparesAt touched named (convertNamedXObject convert name) walk := by
  unfold convertNamedXObject
  refine respectsAt_get_bind ?_
  split
  · exact respectsAt_pure _ _
  · rename_i isOld
    have isNew : walk.xobjects.contains name = false := by simpa using isOld
    refine respectsAt_modify_bind (Walk.spares_of_eq rfl rfl) ?_
    refine (Walk.sparesAt_count _ _).bind fun _ after counted => ?_
    obtain ⟨_, rfl⟩ := EStateM.Result.ok.inj counted
    exact sparesAt_convertXObject unused fun owner use used => allowed owner use ⟨isNew, used⟩

/-- Converting the external objects of operands spares what their uses do not reach. -/
theorem sparesAt_convertXObjects (unused : convert.SparesUnused uses) {operands : List Object}
    {walk : Walk}
    (allowed : ∀ owner use, XObjectsUse convert uses operands walk owner use →
      use.Allowed touched named owner) :
    Walk.SparesAt touched named (convertXObjects convert operands) walk := by
  have converts : Walk.SparesAt touched named (operands.forM fun operand => do
      convertNamedXObject convert (← Operands.nameOf "Do" operand)) walk := by
    apply respectsAt_forM
      (fun operand walk (what : Owner × Use) => ∃ name, Operands.nameOf "Do" operand = .ok name ∧
        NamedXObjectUses convert uses name walk what.1 what.2)
      (fun what => what.2.Allowed touched named what.1)
    · intro operand _ walk allowed
      refine respectsAt_lift_bind fun name isName => ?_
      exact sparesAt_convertNamedXObject unused fun owner use used =>
        allowed (owner, use) ⟨name, isName, used⟩
    · exact fun what happens => allowed what.1 what.2 happens
  unfold convertXObjects
  split
  · exact (respectsAt_throw _ _).bind fun _ _ done => (throw_eq_ok.1 done).elim
  · exact converts

/-- An operation that is counted spares everything. -/
theorem sparesAt_counted (operation : Operation) (walk : Walk) :
    Walk.SparesAt touched named (counted operation) walk :=
  (Walk.sparesAt_count _ _).bind fun _ _ _ => respectsAt_pure _ _

/-- Converting a color spares what the uses of its pattern do not reach. -/
theorem sparesAt_convertColor (unused : convert.SparesUnused uses) {ink : Ink} {walk : Walk}
    (allowed : ∀ name underlying owner use, ink.color = .pattern name underlying →
      NamedPatternUses convert uses name walk owner use → use.Allowed touched named owner) :
    Walk.SparesAt touched named (convertColor convert ink) walk := by
  unfold convertColor
  split
  · exact respectsAt_lift_bind fun color _ => respectsAt_pure _ _
  · rename_i name underlying isPattern
    refine (sparesAt_convertNamedPattern unused fun owner use used =>
      allowed name underlying owner use isPattern used).bind fun _ after _ => ?_
    dsimp only
    split
    · exact respectsAt_pure _ _
    · exact respectsAt_lift_bind fun color _ => respectsAt_pure _ _
    · exact respectsAt_throw _ _

/-- Selecting a color space spares everything, and notes only what the operation names. -/
theorem sparesAt_convertSpace {slot : Slot} {operation : Operation} {walk : Walk}
    (isNamed : ∀ name, Operands.singleName operation.keyword operation.operands = .ok name →
      named name) : Walk.SparesAt touched named (convertSpace slot operation) walk := by
  unfold convertSpace
  refine respectsAt_get_bind ?_
  split
  · refine respectsAt_lift_bind fun name isName => ?_
    have inserts (walk : Walk) : Walk.SparesAt touched named
        (modify fun walk : Walk => { walk with patternSpaces := walk.patternSpaces.insert name })
        walk := by
      refine ⟨refl_of (Document.Spares touched) _, fun other known => ?_⟩
      rcases Names.mem_insert.1 known with rfl | known
      · exact Or.inr (isNamed other isName)
      · exact Or.inl known
    have noted (walk : Walk) : Walk.SparesAt touched named (noteSpace slot name) walk := by
      unfold noteSpace
      refine respectsAt_get_bind (respectsAt_lift_bind fun former _ => ?_)
      cases former with
      | some former => exact respectsAt_modify_bind (Walk.spares_of_eq rfl rfl) (inserts _)
      | none => exact inserts _
    split
    · exact (noted _).bind fun _ _ _ => respectsAt_pure _ _
    · exact respectsAt_pure _ _
  · exact sparesAt_counted _ _

/-- Setting a color of red, green and blue spares everything. -/
theorem sparesAt_convertRgb (slot : Slot) (operation : Operation) (walk : Walk) :
    Walk.SparesAt touched named (convertRgb slot operation) walk := by
  unfold convertRgb
  refine respectsAt_lift_bind fun _ _ => respectsAt_lift_bind fun values _ => ?_
  split
  · exact sparesAt_counted _ _
  · exact respectsAt_pure _ _

/-- Setting a color of four inks spares everything. -/
theorem sparesAt_convertInks (slot : Slot) (operation : Operation) (walk : Walk) :
    Walk.SparesAt touched named (convertInks slot operation) walk := by
  unfold convertInks
  refine respectsAt_lift_bind fun _ _ => respectsAt_lift_bind fun values _ => ?_
  split
  · exact sparesAt_counted _ _
  · exact respectsAt_pure _ _

/-- A pattern that is the color of a slot after it was set is named by the operation. -/
theorem names_of_follow {operation : Operation} {scope : Scope} {before after : GraphicsState}
    {slot : Slot} {name : String} {underlying : Option (List Float32)}
    (followed : before.follow scope operation = .ok after) (sets : operation.SetsColor slot)
    (isPattern : (after.ink slot).color = .pattern name underlying) : operation.Names name := by
  obtain ⟨_, isLast⟩ := GraphicsState.named_of_follow followed sets isPattern
  obtain ⟨operand, atEnd, isName⟩ := Option.bind_eq_some_iff.1 isLast
  exact ⟨operand, List.mem_of_getLast? atEnd, isName⟩

/-- Converting an operation that the graphics state has followed spares what its uses do not
reach. -/
theorem sparesAt_convertFollowed (unused : convert.SparesUnused uses) {operation : Operation}
    {walk : Walk}
    (names : ∀ slot name underlying, operation.SetsColor slot →
      (walk.state.ink slot).color = .pattern name underlying → operation.Names name)
    (allowed : ∀ owner use, FollowedUses convert uses operation walk owner use →
      use.Allowed touched named owner) :
    Walk.SparesAt touched named (convertFollowed convert operation) walk := by
  unfold FollowedUses at allowed
  unfold convertFollowed
  have color (slot : Slot) (sets : operation.SetsColor slot)
      (allowed : ∀ owner use, (∃ name underlying,
        (walk.state.ink slot).color = .pattern name underlying ∧ operation.Names name ∧
          NamedPatternUses convert uses name walk owner use) → use.Allowed touched named owner) :
      Walk.SparesAt touched named (do
        let operands ← convertColor convert ((← get).state.ink slot)
        counted { operation with operands := operands }) walk := by
    refine respectsAt_get_bind ?_
    refine (sparesAt_convertColor unused fun name underlying owner use isPattern used => ?_).bind
      fun _ _ _ => sparesAt_counted _ _
    exact allowed owner use
      ⟨name, underlying, isPattern, names slot name underlying sets isPattern, used⟩
  cases isOperator : Operator.ofKeyword operation.keyword with
  | saveState | restoreState | setGray | other => exact respectsAt_pure _ _
  | setSpace slot =>
      simp only [isOperator] at allowed
      exact sparesAt_convertSpace fun name isName =>
        (allowed .outer _ ⟨rfl, name, isName, rfl⟩).named rfl rfl
  | setColor slot | setPatternColor slot =>
      simp only [isOperator] at allowed
      exact color slot (by simp [Operation.SetsColor, isOperator]) allowed
  | setRgb slot => exact sparesAt_convertRgb slot operation walk
  | setCmyk slot => exact sparesAt_convertInks slot operation walk
  | paintShading =>
      simp only [isOperator] at allowed
      refine respectsAt_lift_bind fun name isName => ?_
      exact (sparesAt_convertNamedShading fun owner use used =>
        allowed owner use ⟨name, isName, used⟩).bind fun _ _ _ => respectsAt_pure _ _
  | inlineImage =>
      refine respectsAt_lift_bind fun image _ => ?_
      exact (Walk.sparesAt_onScene (sparesAt_convertInlineImage image _)).bind
        fun _ _ _ => respectsAt_pure _ _
  | paintXObject =>
      simp only [isOperator] at allowed
      exact (sparesAt_convertXObjects unused allowed).bind fun _ _ _ => respectsAt_pure _ _

/-- Converting an operation spares what its uses do not reach. -/
theorem sparesAt_convertOperation (unused : convert.SparesUnused uses) {operation : Operation}
    {walk : Walk}
    (allowed : ∀ owner use, OperationUses convert uses operation walk owner use →
      use.Allowed touched named owner) :
    Walk.SparesAt touched named (convertOperation convert operation) walk := by
  unfold convertOperation
  refine respectsAt_get_bind (respectsAt_lift_bind fun state followed => ?_)
  refine respectsAt_modify_bind (Walk.spares_of_eq rfl rfl) ?_
  exact sparesAt_convertFollowed unused
    (fun slot name underlying sets isPattern => names_of_follow followed sets isPattern)
    fun owner use used => allowed owner use ⟨state, followed, used⟩

/-- Converting the operations of content spares what their uses do not reach. -/
theorem sparesAt_convertOperations (unused : convert.SparesUnused uses) {operations : List Operation}
    {walk : Walk}
    (allowed : ∀ owner use, Happens (convertOperation convert) (fun operation walk =>
      OperationUses convert uses operation walk owner use) operations walk →
        use.Allowed touched named owner) :
    Walk.SparesAt touched named (operations.mapM (convertOperation convert)) walk := by
  apply respectsAt_mapM
    (fun operation walk (what : Owner × Use) =>
      OperationUses convert uses operation walk what.1 what.2)
    (fun what => what.2.Allowed touched named what.1)
  · intro operation walk allowed
    exact sparesAt_convertOperation unused fun owner use used => allowed (owner, use) used
  · exact fun what happens => allowed what.1 what.2 happens

/-- Going through a stream spares what the walk does. -/
theorem sparesAt_through {step : Change Walk α} {scene : Scene}
    (spares : Walk.SparesAt touched named step ⟨scene, default, {}, {}, {}, {}⟩) :
    Scene.SparesAt touched (Walk.through step) scene := by
  unfold Walk.SparesAt RespectsAt outcome EStateM.run at spares
  unfold Scene.SparesAt RespectsAt outcome EStateM.run Walk.through
  cases done : step ⟨scene, default, {}, {}, {}, {}⟩ <;>
    simpa only [done] using (done ▸ spares).document

/-- A change inside a stream spares what it does there, if the stream can be entered. -/
theorem sparesAt_inside {location : Option ObjectId} {step : Change Scene α} {scene : Scene}
    (spares : ∀ trail,
      scene.converter.trail.enter scene.converter.options.maxNestingDepth location = .ok trail →
      Scene.SparesAt touched step (Scene.inside.setTrail trail scene)) :
    Scene.SparesAt touched (Scene.inside location step) scene := by
  unfold Scene.SparesAt RespectsAt outcome EStateM.run at spares
  unfold Scene.SparesAt RespectsAt outcome EStateM.run Scene.inside
  cases entered : scene.converter.trail.enter scene.converter.options.maxNestingDepth location with
  | error fault => exact refl_of (Document.Spares touched) _
  | ok trail =>
      have spares := spares trail entered
      cases done : step (Scene.inside.setTrail trail scene) <;>
        simp only [done] at spares ⊢ <;> exact spares

/-- Converting a stream spares what its uses do not reach, and notes only what its operations
name. -/
theorem sparesUnused_convertStream (depth : Nat) :
    (convertStream depth).SparesUnused (StreamUses depth) := by
  induction depth with
  | zero =>
      constructor
      · intro touched location content scene _
        exact respectsAt_get_bind (respectsAt_throw _ _)
      · intro location content scene bytes names left done
        simp [convertStream, bind_eq_ok, throw_eq_ok] at done
  | succ depth unused =>
      constructor
      · intro touched location content scene reaches
        have walks (trail : Trail) (entered : scene.converter.trail.enter
            scene.converter.options.maxNestingDepth location = .ok trail) :
            Walk.SparesAt touched (fun _ => True) (convertOperations (convertStream depth) content)
              ⟨Scene.inside.setTrail trail scene, default, {}, {}, {}, {}⟩ := by
          refine respectsAt_lift_bind fun operations read => ?_
          refine (sparesAt_convertOperations unused fun owner use happens => ?_).bind
            fun _ _ _ => respectsAt_lift _ _
          refine ⟨fun target => reaches owner use target ⟨_, operations, ?_, read, happens⟩,
            fun _ _ => trivial⟩
          simp only [entering, entered]
          rfl
        refine (sparesAt_inside fun trail entered => sparesAt_through (walks trail entered)).bind
          fun _ _ _ => ?_
        exact (Scene.sparesAt_onJob (Job.sparesAt_count _ _)).bind fun _ _ _ => respectsAt_pure _ _
      · intro location content scene bytes names left done name known
        obtain ⟨start, operations, converted, finish, entered, read, mapped, _, rfl, _⟩ :=
          convertStream_eq_ok done
        have notes : Walk.SparesAt (fun _ => True)
            (fun name => ∃ moment, StreamUses (depth + 1) location content scene .outer
              ⟨moment, .colorSpace, name⟩)
            (operations.mapM (convertOperation (convertStream depth))) start := by
          refine sparesAt_convertOperations unused fun owner use happens =>
            ⟨fun _ _ => trivial, ?_⟩
          rintro rfl isSpace
          obtain ⟨moment, kind, name⟩ := use
          obtain rfl : kind = .colorSpace := isSpace
          exact ⟨moment, start, operations, entered, read, happens⟩
        refine ((notes.of_ok mapped).names name known).resolve_left ?_
        simp only [entering, Outcome.bind_eq_ok, Outcome.pure_eq_ok] at entered
        obtain ⟨trail, _, rfl⟩ := entered
        exact List.not_mem_nil

/-- A conversion changes only what it reaches, whether it succeeds or fails. -/
theorem changesOnly_contentToGray {content : Bytes} {scene : Scene}
    (isNumbered : scene.document.IsNumbered) :
    scene.document.ChangesOnly (ContentReaches content scene)
      ((contentToGray content).outcome scene).2.document := by
  have spares : Scene.SparesAt (ContentReaches content scene) (contentToGray content) scene :=
    respectsAt_get_bind (sparesAt_convertOwn (sparesUnused_convertStream _)
      fun use target used reached => ⟨use, used, reached⟩)
  exact spares isNumbered

/-- Content that sets a color without a name. -/
def plainContent : Bytes :=
  Bytes.ascii "q 0.5 g Q"

/-- A document with a font and a page that has it among its resources. -/
def plainScene : Scene :=
  let font := Object.dictionary (Table.ofList [(Bytes.ascii "Type", .named "Font")])
  let fonts := Object.dictionary (Table.ofList [(Bytes.ascii "F", .reference ⟨1, 0⟩)])
  let resources := Table.ofList [(Bytes.ascii "Font", fonts)]
  let page := Object.dictionary (Table.ofList [(Bytes.ascii "Resources", .dictionary resources)])
  ⟨⟨Document.ofObjects [(⟨1, 0⟩, font), (⟨2, 0⟩, page)] Table.empty, {}⟩, .direct resources⟩

end Conversion
end Monochrome
