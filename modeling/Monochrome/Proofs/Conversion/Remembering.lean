import Mathlib.Tactic.SplitIfs
import Mathlib.Tactic.Tauto
import Monochrome.Conversion.Stream
import Monochrome.Proofs.Change

/-!
# What a converter remembers

A converter remembers the pattern spaces that it made gray.  Whatever it converts, it never forgets
one and never remembers another space for it, and what it adds are pattern spaces over other
spaces.
-/

namespace Monochrome

/-- What a converter remembers later: all that it did before, and besides only pattern spaces over
other spaces. -/
structure Converter.RemembersMore (before after : Converter) : Prop where
  kept : ∀ location space, before.formerSpaces.find? location = some space →
    after.formerSpaces.find? location = some space
  added : ∀ location space, after.formerSpaces.find? location = some space →
    before.formerSpaces.find? location = some space ∨
      ∃ underlying, space = .patternOver underlying

namespace Converter

/-- A converter that remembers the same remembers as much. -/
theorem RemembersMore.of_eq {before after : Converter}
    (same : after.formerSpaces = before.formerSpaces) : before.RemembersMore after where
  kept location space found := by rw [same]; exact found
  added location space found := by rw [same] at found; exact Or.inl found

instance : IsPreorder Converter RemembersMore where
  refl _ := .of_eq rfl
  trans _ _ _ early late :=
    { kept := fun location space found => late.kept location space (early.kept location space found)
      added := fun location space found => by
        rcases late.added location space found with old | added
        · exact early.added location space old
        · exact Or.inr added }

/-- A pattern space is remembered for a location that was not remembered. -/
theorem RemembersMore.insert {converter : Converter} {location : EntryLocation}
    {underlying : ColorSpace Float32 Float}
    (fresh : converter.formerSpaces.contains location = false) :
    converter.RemembersMore { converter with
      formerSpaces := converter.formerSpaces.insert location (.patternOver underlying) } where
  kept other space found := by
    have differ : location ≠ other := by
      rintro rfl
      simp [Table.contains, found] at fresh
    simpa [differ] using found
  added other space found := by
    by_cases same : location = other
    · simp only [Table.find?_insert, same, if_true, Option.some.injEq] at found
      exact Or.inr ⟨underlying, found.symm⟩
    · simp only [Table.find?_insert, same, if_false] at found
      exact Or.inl found

/-- Whether all that a converter remembers are pattern spaces over other spaces. -/
def RemembersPatterns (converter : Converter) : Prop :=
  ∀ location space, converter.formerSpaces.find? location = some space →
    ∃ underlying, space = .patternOver underlying

/-- What is remembered later are pattern spaces if what was remembered before are. -/
theorem RemembersPatterns.of_more {before after : Converter} (patterns : before.RemembersPatterns)
    (more : before.RemembersMore after) : after.RemembersPatterns := by
  intro location space found
  rcases more.added location space found with old | added
  · exact patterns location space old
  · exact added

/-- A new converter remembers nothing. -/
theorem remembersPatterns_new (options : Options) :
    Converter.RemembersPatterns { options := options } := by
  intro location space found
  simp at found

end Converter

namespace Names

/-- A set with a name has that name besides. -/
theorem mem_insert {names : Names} {name other : String} :
    other ∈ (names.insert name).toList ↔ other = name ∨ other ∈ names.toList := by
  obtain ⟨list⟩ := names
  show other ∈ insertIn name list ↔ other = name ∨ other ∈ list
  induction list with
  | nil => simp [insertIn]
  | cons first rest inductionHypothesis =>
      unfold insertIn
      split_ifs with same before
      · simp [same]
      · exact List.mem_cons
      · simp only [List.mem_cons, inductionHypothesis]
        exact or_left_comm

/-- A union has the names of both sets. -/
theorem mem_union {names others : Names} {other : String} :
    other ∈ (names.union others).toList ↔ other ∈ names.toList ∨ other ∈ others.toList := by
  obtain ⟨list⟩ := others
  show other ∈ (list.foldl insert names).toList ↔ other ∈ names.toList ∨ other ∈ list
  induction list generalizing names with
  | nil => simp
  | cons first rest inductionHypothesis =>
      rw [List.foldl_cons, inductionHypothesis, mem_insert, List.mem_cons]
      tauto

end Names

open Change

/-- Whether a step of a job only adds to what its converter remembers. -/
abbrev Job.Remembers (step : Change Job α) : Prop :=
  Respects Job.converter Converter.RemembersMore step

/-- Whether a step of a scene only adds to what its converter remembers. -/
abbrev Scene.Remembers (step : Change Scene α) : Prop :=
  Respects (fun scene => scene.converter) Converter.RemembersMore step

/-- What a walk keeps while it goes on: it only adds to what its converter remembers, and to the
pattern spaces that it selected. -/
structure Walk.Keeps (before after : Walk) : Prop where
  remembers : before.converter.RemembersMore after.converter
  names : before.patternSpaces.toList ⊆ after.patternSpaces.toList

instance : IsPreorder Walk Walk.Keeps where
  refl _ := ⟨refl_of _ _, fun _ known => known⟩
  trans _ _ _ early late :=
    ⟨trans_of _ early.remembers late.remembers, fun _ known => late.names (early.names known)⟩

/-- What a walk keeps while it converts something beside the operation that it reads: it does not
touch the graphics state either. -/
structure Walk.Beside (before after : Walk) : Prop extends Walk.Keeps before after where
  state : after.state = before.state

instance : IsPreorder Walk Walk.Beside where
  refl _ := ⟨refl_of _ _, rfl⟩
  trans _ _ _ early late :=
    ⟨trans_of _ early.toKeeps late.toKeeps, late.state.trans early.state⟩

/-- Whether a step of a walk is taken beside the operation that it reads. -/
abbrev Walk.IsBeside (step : Change Walk α) : Prop :=
  Respects id Walk.Beside step

/-- Whether a step of a walk only adds to what its converter remembers. -/
abbrev Walk.Remembers (step : Change Walk α) : Prop :=
  Respects (fun walk => walk.converter) Converter.RemembersMore step

namespace Job

/-- A change of the document remembers. -/
theorem remembers_onDocument (step : Change Document α) : Remembers (onDocument step) := by
  have anything : Respects id (fun _ _ : Document => True) step := fun _ => trivial
  exact anything.within fun _ _ _ => refl_of _ _

/-- Counting remembers. -/
theorem remembers_count (change : Statistics → Statistics) : Remembers (count change) :=
  respects_modify fun _ => .of_eq rfl

/-- A change under other resources remembers what it would in a scene. -/
theorem remembers_withResources {step : Change Scene α} (remembers : Scene.Remembers step)
    (resources : Resources) : Remembers (withResources resources step) := by
  refine respects_of ?_ ?_
  · intro job value after done
    unfold withResources at done
    split at done
    · rename_i result scene atStep
      simp only [EStateM.Result.ok.injEq] at done
      rw [← done.2]
      exact remembers.of_ok atStep
    · simp at done
  · intro job fault after failed
    unfold withResources at failed
    split at failed
    · simp at failed
    · rename_i fault scene atStep
      simp only [EStateM.Result.error.injEq] at failed
      rw [← failed.2]
      exact remembers.of_error atStep

end Job

namespace Scene

/-- A change of the document or the resources leaves the converter alone. -/
theorem converter_onScope (step : Change Scope α) :
    Respects (fun scene : Scene => scene.converter) Eq (onScope step) := by
  have anything : Respects id (fun _ _ : Scope => True) step := fun _ => trivial
  exact anything.within fun _ _ _ => rfl

/-- A change of the document or the resources remembers. -/
theorem remembers_onScope (step : Change Scope α) : Remembers (onScope step) :=
  fun scene => .of_eq (congrArg Converter.formerSpaces (converter_onScope step scene).symm)

/-- A change of the job remembers what it remembers there. -/
theorem remembers_onJob {step : Change Job α} (remembers : Job.Remembers step) :
    Remembers (onJob step) :=
  Respects.within remembers fun _ _ related => related

/-- A change inside a stream remembers what it would outside. -/
theorem remembers_inside {step : Change Scene α} (remembers : Remembers step)
    (location : Option ObjectId) : Remembers (inside location step) := by
  have leaves (trail : Trail) (scene : Scene) :
      scene.converter.RemembersMore (inside.setTrail trail scene).converter := .of_eq rfl
  refine respects_of ?_ ?_
  · intro scene value after done
    unfold inside at done
    split at done
    · simp at done
    · split at done
      · rename_i trail _ _ _ middle atStep
        simp only [EStateM.Result.ok.injEq] at done
        rw [← done.2]
        exact trans_of _ (trans_of _ (leaves trail scene) (remembers.of_ok atStep)) (leaves _ _)
      · simp at done
  · intro scene fault after failed
    unfold inside at failed
    split at failed
    · simp only [EStateM.Result.error.injEq] at failed
      rw [failed.2]
      exact refl_of _ _
    · rename_i trail _
      split at failed
      · simp at failed
      · rename_i fault middle atStep
        simp only [EStateM.Result.error.injEq] at failed
        rw [← failed.2]
        exact trans_of _ (trans_of _ (leaves trail scene) (remembers.of_error atStep))
          (leaves _ _)

end Scene

namespace Walk

/-- What is kept by a step that is taken beside the operation and succeeds. -/
theorem beside_of_ok {step : Change Walk α} {walk after : Walk} {value : α}
    (isBeside : IsBeside step) (done : step walk = .ok value after) : walk.Beside after :=
  isBeside.of_ok done

/-- What is done beside the operation remembers. -/
theorem remembers_of_isBeside {step : Change Walk α} (isBeside : IsBeside step) :
    Remembers step :=
  fun walk => (isBeside walk).remembers

/-- A change of the scene is taken beside the operation. -/
theorem isBeside_onScene {step : Change Scene α} (remembers : Scene.Remembers step) :
    IsBeside (onScene step) :=
  Respects.within remembers fun _ _ related => ⟨⟨related, fun _ known => known⟩, rfl⟩

/-- A change of the job is taken beside the operation. -/
theorem isBeside_onJob {step : Change Job α} (remembers : Job.Remembers step) :
    IsBeside (onJob step) :=
  isBeside_onScene (Scene.remembers_onJob remembers)

/-- Replacing a resource is done beside the operation. -/
theorem isBeside_setResource (kind : ResourceKind) (name : String) (value : Object) :
    IsBeside (setResource kind name value) :=
  isBeside_onScene (Scene.remembers_onScope _)

/-- Counting is done beside the operation. -/
theorem isBeside_count (change : Statistics → Statistics) :
    IsBeside (onJob (Job.count change)) :=
  isBeside_onJob (Job.remembers_count change)

end Walk

namespace Conversion

/-- Whether every stream is converted with nothing forgotten. -/
abbrev StreamConversion.Remembers (convert : StreamConversion) : Prop :=
  ∀ location content, Scene.Remembers (convert location content)

variable {convert : StreamConversion}

/-- Making a pattern space gray remembers what it was. -/
theorem remembers_convertPatternSpace (name : String) :
    Scene.Remembers (convertPatternSpace name) := by
  have keeps := Scene.converter_onScope (Scope.setColorSpace name (.patternOver .deviceGray))
  intro scene
  rw [convertPatternSpace, outcome_get_bind, outcome_lift_bind]
  cases scene.scope.location? .colorSpace name with
  | error fault => exact refl_of _ _
  | ok location =>
      dsimp only
      split
      · exact refl_of _ _
      · rename_i known
        rw [outcome_lift_bind]
        cases scene.scope.colorSpace name with
        | error fault => exact refl_of _ _
        | ok space =>
            dsimp only
            split
            · rename_i underlying
              have same := keeps scene
              rw [outcome_bind]
              revert same
              generalize (Scene.onScope (Scope.setColorSpace name
                (.patternOver .deviceGray))).outcome scene = result
              intro same
              obtain ⟨done | done, after⟩ := result
              · exact .of_eq (congrArg Converter.formerSpaces same.symm)
              · cases location with
                | none => exact .of_eq (congrArg Converter.formerSpaces same.symm)
                | some location =>
                    have fresh : scene.converter.formerSpaces.contains location = false := by
                      simpa using known
                    simp only [outcome_modify] at same ⊢
                    rw [same] at fresh ⊢
                    exact .insert fresh
            · exact refl_of _ _

/-- Converting the content of a stream and its pattern spaces remembers. -/
theorem remembers_convertOwn (remembers : convert.Remembers) (location : Option ObjectId)
    (content : Bytes) : Scene.Remembers (convertOwn convert location content) := by
  refine (remembers location content).bind fun converted => ?_
  exact (respects_forM remembers_convertPatternSpace _).bind fun _ => respects_pure _

/-- Converting a stream under resources of its own remembers. -/
theorem remembers_convertContent (remembers : convert.Remembers) (source : ContentStream)
    (content : Bytes) (own : Resources) :
    Job.Remembers (convertContent convert source content own) := by
  have converts := remembers_convertOwn remembers source.location content
  refine (Job.remembers_withResources converts own).bind fun converted => ?_
  refine respects_get.bind fun job => ?_
  cases converted.2 <;> exact respects_pure _

/-- Converting a pattern remembers. -/
theorem remembers_convertPattern (remembers : convert.Remembers) (pattern : Pattern) :
    Job.Remembers (convertPattern convert pattern) := by
  unfold convertPattern
  cases pattern with
  | tiling cell paintType =>
      dsimp only
      split
      · refine respects_get.bind fun job => (respects_lift _).bind fun content => ?_
        refine (respects_lift _).bind fun own => ?_
        exact (remembers_convertContent remembers cell content _).bind fun _ => respects_pure _
      · exact respects_pure _
  | shading entries shading location =>
      refine (Job.remembers_onDocument _).bind fun gray => ?_
      cases location with
      | some target => exact (Job.remembers_onDocument _).bind fun _ => respects_pure _
      | none => exact respects_pure _

/-- Converting an image remembers. -/
theorem remembers_convertImage (image : Stream) : Job.Remembers (convertImage image) := by
  refine respects_get.bind fun job => (respects_lift _).bind fun isMask => ?_
  split
  · exact respects_pure _
  · refine (respects_lift _).bind fun space => (respects_lift _).bind fun task => ?_
    cases task with
    | keep => exact respects_pure _
    | replaceSpace gray => exact (Job.remembers_onDocument _).bind fun _ => respects_pure _
    | replaceSamples space encoder =>
        refine (respects_lift _).bind fun samples => (respects_lift _).bind fun colors => ?_
        exact (respects_lift _).bind fun encoded => respects_pure _

/-- Converting an inline image remembers. -/
theorem remembers_convertInlineImage (image : Stream) :
    Scene.Remembers (convertInlineImage image) := by
  refine respects_get.bind fun scene => ?_
  split
  · exact respects_pure _
  · refine (respects_lift _).bind fun space => (respects_lift _).bind fun task => ?_
    cases task with
    | keep => exact respects_pure _
    | replaceSpace gray => exact (Scene.remembers_onScope _).bind fun _ => respects_pure _
    | replaceSamples space encoder =>
        refine (respects_lift _).bind fun samples => (respects_lift _).bind fun colors => ?_
        exact (Scene.remembers_onJob (Job.remembers_count _)).bind fun _ => respects_lift _

/-- Changing only what a walk used is done beside the operation. -/
theorem isBeside_modify {change : Walk → Walk}
    (sameConverter : ∀ walk, (change walk).converter = walk.converter)
    (moreNames : ∀ walk, walk.patternSpaces.toList ⊆ (change walk).patternSpaces.toList)
    (sameState : ∀ walk, (change walk).state = walk.state) :
    Walk.IsBeside (modify change : Change Walk PUnit) :=
  respects_modify fun walk =>
    ⟨⟨.of_eq (congrArg Converter.formerSpaces (sameConverter walk)), moreNames walk⟩,
      sameState walk⟩

/-- A named pattern is converted beside the operation. -/
theorem isBeside_convertNamedPattern (remembers : convert.Remembers) (name : String) :
    Walk.IsBeside (convertNamedPattern convert name) := by
  refine respects_get.bind fun walk => ?_
  split
  · exact respects_pure _
  · refine Respects.bind (isBeside_modify (fun _ => by rfl) (fun _ _ => id) fun _ => by rfl)
      fun _ => ?_
    refine (respects_lift _).bind fun pattern => ?_
    refine (Walk.isBeside_onJob (remembers_convertPattern remembers pattern)).bind fun gray => ?_
    exact (Walk.isBeside_setResource _ _ _).bind fun _ => Walk.isBeside_count _

/-- A named shading is converted beside the operation. -/
theorem isBeside_convertNamedShading (name : String) :
    Walk.IsBeside (convertNamedShading name) := by
  refine respects_get.bind fun walk => ?_
  split
  · exact respects_pure _
  · refine Respects.bind (isBeside_modify (fun _ => by rfl) (fun _ _ => id) fun _ => by rfl)
      fun _ => ?_
    refine (respects_lift _).bind fun shading => ?_
    refine (Walk.isBeside_onJob (Job.remembers_onDocument _)).bind fun gray => ?_
    exact (Walk.isBeside_setResource _ _ _).bind fun _ => Walk.isBeside_count _

/-- A form is converted beside the operation. -/
theorem isBeside_convertForm (remembers : convert.Remembers) (form : ContentStream) :
    Walk.IsBeside (convertForm convert form) := by
  refine respects_get.bind fun walk => (respects_lift _).bind fun content => ?_
  refine (respects_lift _).bind fun own => ?_
  cases own with
  | some own => exact Walk.isBeside_onJob (remembers_convertContent remembers form content own)
  | none =>
      refine (Walk.isBeside_onScene (remembers form.location content)).bind fun converted => ?_
      refine Respects.bind (isBeside_modify (fun _ => by rfl) (fun walk => ?_) fun _ => by rfl)
        fun _ => ?_
      · exact fun name known => Names.mem_union.2 (Or.inl known)
      · exact respects_get.bind fun _ => respects_pure _

/-- An external object is converted beside the operation. -/
theorem isBeside_convertXObject (remembers : convert.Remembers) (name : String) :
    Walk.IsBeside (convertXObject convert name) := by
  refine respects_get.bind fun walk => (respects_lift _).bind fun xobject => ?_
  cases xobject with
  | image image =>
      refine (Walk.isBeside_onJob (remembers_convertImage image)).bind fun gray => ?_
      cases gray with
      | some gray => exact (Walk.isBeside_setResource _ _ _).bind fun _ => Walk.isBeside_count _
      | none => exact respects_pure _
  | form form =>
      refine (isBeside_convertForm remembers form).bind fun gray => ?_
      exact (Walk.isBeside_setResource _ _ _).bind fun _ => Walk.isBeside_count _
  | other => exact respects_pure _

/-- A named external object is converted beside the operation. -/
theorem isBeside_convertNamedXObject (remembers : convert.Remembers) (name : String) :
    Walk.IsBeside (convertNamedXObject convert name) := by
  refine respects_get.bind fun walk => ?_
  split
  · exact respects_pure _
  · refine Respects.bind (isBeside_modify (fun _ => by rfl) (fun _ _ => id) fun _ => by rfl)
      fun _ => ?_
    exact (Walk.isBeside_count _).bind fun _ => isBeside_convertXObject remembers name

/-- The external objects of operands are converted beside the operation. -/
theorem isBeside_convertXObjects (remembers : convert.Remembers) (operands : List Object) :
    Walk.IsBeside (convertXObjects convert operands) := by
  have named : Walk.IsBeside (operands.forM fun operand => do
      convertNamedXObject convert (← Operands.nameOf "Do" operand)) :=
    respects_forM (fun operand => (respects_lift _).bind fun name =>
      isBeside_convertNamedXObject remembers name) operands
  unfold convertXObjects
  split
  · exact (respects_throw _).bind fun _ => named
  · exact named

/-- An operation is counted beside the operation. -/
theorem isBeside_counted (operation : Operation) : Walk.IsBeside (counted operation) :=
  (Walk.isBeside_count _).bind fun _ => respects_pure _

/-- A color is converted beside the operation. -/
theorem isBeside_convertColor (remembers : convert.Remembers) (ink : Ink) :
    Walk.IsBeside (convertColor convert ink) := by
  unfold convertColor
  split
  · exact (respects_lift _).bind fun color => respects_pure _
  · refine (isBeside_convertNamedPattern remembers _).bind fun _ => ?_
    dsimp only
    split
    · exact respects_pure _
    · exact (respects_lift _).bind fun color => respects_pure _
    · exact respects_throw _

/-- Changing only the graphics state and the names of a walk remembers. -/
theorem remembers_modify {change : Walk → Walk}
    (sameConverter : ∀ walk, (change walk).converter = walk.converter) :
    Walk.Remembers (modify change : Change Walk PUnit) :=
  respects_modify fun walk => .of_eq (congrArg Converter.formerSpaces (sameConverter walk))

/-- Selecting a color space remembers. -/
theorem remembers_convertSpace (slot : Slot) (operation : Operation) :
    Walk.Remembers (convertSpace slot operation) := by
  refine respects_get.bind fun walk => ?_
  split
  · refine (respects_lift _).bind fun name => ?_
    have noted : Walk.Remembers (noteSpace slot name) := by
      refine respects_get.bind fun walk => (respects_lift _).bind fun former => ?_
      have inserts : Walk.Remembers (modify fun walk : Walk =>
          { walk with patternSpaces := walk.patternSpaces.insert name }) :=
        remembers_modify fun _ => rfl
      cases former with
      | some former => exact Respects.bind (remembers_modify fun _ => by rfl) fun _ => inserts
      | none => exact inserts
    split
    · exact noted.bind fun _ => respects_pure _
    · exact respects_pure _
  · exact Walk.remembers_of_isBeside (isBeside_counted _)

/-- Setting a color of red, green and blue is done beside the operation. -/
theorem isBeside_convertRgb (slot : Slot) (operation : Operation) :
    Walk.IsBeside (convertRgb slot operation) := by
  refine (respects_lift _).bind fun _ => (respects_lift _).bind fun values => ?_
  split
  · exact isBeside_counted _
  · exact respects_pure _

/-- Setting a color of four inks is done beside the operation. -/
theorem isBeside_convertInks (slot : Slot) (operation : Operation) :
    Walk.IsBeside (convertInks slot operation) := by
  refine (respects_lift _).bind fun _ => (respects_lift _).bind fun values => ?_
  split
  · exact isBeside_counted _
  · exact respects_pure _

/-- Converting an operation that the graphics state has followed remembers. -/
theorem remembers_convertFollowed (remembers : convert.Remembers) (operation : Operation) :
    Walk.Remembers (convertFollowed convert operation) := by
  have color (slot : Slot) : Walk.Remembers (do
      let operands ← convertColor convert ((← get).state.ink slot)
      counted { operation with operands := operands }) :=
    respects_get.bind fun walk => (Walk.remembers_of_isBeside
      (isBeside_convertColor remembers _)).bind fun operands =>
        Walk.remembers_of_isBeside (isBeside_counted _)
  unfold convertFollowed
  cases Operator.ofKeyword operation.keyword with
  | saveState | restoreState | setGray | other => exact respects_pure _
  | setSpace slot => exact remembers_convertSpace slot operation
  | setColor slot | setPatternColor slot => exact color slot
  | setRgb slot => exact Walk.remembers_of_isBeside (isBeside_convertRgb slot operation)
  | setCmyk slot => exact Walk.remembers_of_isBeside (isBeside_convertInks slot operation)
  | paintShading =>
      exact Walk.remembers_of_isBeside ((respects_lift _).bind fun name =>
        (isBeside_convertNamedShading name).bind fun _ => respects_pure _)
  | inlineImage =>
      exact Walk.remembers_of_isBeside ((respects_lift _).bind fun image =>
        (Walk.isBeside_onScene (remembers_convertInlineImage image)).bind fun _ => respects_pure _)
  | paintXObject =>
      exact Walk.remembers_of_isBeside
        ((isBeside_convertXObjects remembers _).bind fun _ => respects_pure _)

/-- Converting an operation remembers. -/
theorem remembers_convertOperation (remembers : convert.Remembers) (operation : Operation) :
    Walk.Remembers (convertOperation convert operation) := by
  refine respects_get.bind fun walk => (respects_lift _).bind fun state => ?_
  exact Respects.bind (remembers_modify fun _ => by rfl) fun _ =>
    remembers_convertFollowed remembers operation

/-- Going through a stream remembers what it does as a walk. -/
theorem remembers_through {step : Change Walk α} (remembers : Walk.Remembers step) :
    Scene.Remembers (Walk.through step) := by
  refine respects_of ?_ ?_
  · intro scene value after done
    unfold Walk.through at done
    split at done
    · rename_i result walk atStep
      simp only [EStateM.Result.ok.injEq] at done
      rw [← done.2]
      exact remembers.of_ok atStep
    · simp at done
  · intro scene fault after failed
    unfold Walk.through at failed
    split at failed
    · simp at failed
    · rename_i fault walk atStep
      simp only [EStateM.Result.error.injEq] at failed
      rw [← failed.2]
      exact remembers.of_error atStep

/-- Converting content remembers. -/
theorem remembers_convertOperations (remembers : convert.Remembers) (content : Bytes) :
    Walk.Remembers (convertOperations convert content) := by
  refine (respects_lift _).bind fun operations => ?_
  exact (respects_mapM (remembers_convertOperation remembers) operations).bind fun converted =>
    respects_lift _

/-- Converting a stream in which streams are nested remembers. -/
theorem remembers_convertStream (depth : Nat) : (convertStream depth).Remembers := by
  induction depth with
  | zero =>
      intro location content
      exact respects_get.bind fun scene => respects_throw _
  | succ depth inductionHypothesis =>
      intro location content
      refine (Scene.remembers_inside (remembers_through
        (remembers_convertOperations inductionHypothesis content)) location).bind fun result => ?_
      exact (Scene.remembers_onJob (Job.remembers_count _)).bind fun _ => respects_pure _

/-- Converting content and its pattern spaces remembers. -/
theorem remembers_contentToGray (content : Bytes) : Scene.Remembers (contentToGray content) :=
  respects_get.bind fun _ => remembers_convertOwn (remembers_convertStream _) none content

end Conversion
end Monochrome
