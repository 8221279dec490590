import Monochrome.Proofs.Conversion.GrayContent
import Monochrome.Proofs.Conversion.InPlace
import Monochrome.Proofs.Conversion.Staying

/-!
# Colors told as before

A document is converted over and over, by one converter.  Whatever was converted before, the colors
of content that is converted later are told in the spaces that its names stood for at first: where a
pattern space became gray, the converter remembers the one that it was.
-/

namespace Monochrome

variable {layout : Layout} {scene : Scene}

/-- What names stand for in a document that is as it was is told by the document and by what is
remembered. -/
theorem Layout.Keeps.tellsAs
    (keeps : layout.Keeps scene.converter.formerSpaces scene.document)
    (has : layout.HasResources scene.resources) :
    scene.TellsAs layout.IsShared ⟨layout.original, scene.resources⟩ where
  agree := keeps.agree
  told name space own found := by
    simp only [Scope.colorSpace, Outcome.bind_eq_ok] at found
    obtain ⟨entry, atName, read⟩ := found
    cases entry with
    | none => simp [own, Outcome.throw_eq_ok] at read
    | some entry =>
        dsimp only at read
        obtain ⟨place, before, located, wasAtName, settled⟩ := keeps.settled_lookup has atName
        have isFormer := Conversion.formerSpace?_of_location? located
        have told {was : ColorSpace Float32 Float}
            (wasRead : ColorSpace.read layout.original before = .ok was) :
            Scope.colorSpace ⟨layout.original, scene.resources⟩ name = .ok was :=
          Outcome.bind_eq_ok.2 ⟨_, wasAtName, wasRead⟩
        generalize isNow : entry.value = now at settled read
        cases settled with
        | kept notFormer =>
            have isNone : place.bind scene.converter.formerSpaces.find? = none := by
              cases place with
              | none => rfl
              | some location => exact notFormer location rfl
            have isValue := Scope.isReference_of_lookup? atName
            have fits := Object.fits_shared_of_space (keeps.entry_fits has atName).1 isValue
            rw [isNow] at fits
            refine ⟨space, told (ColorSpace.carries_read keeps.agree.leads fits _ read), rfl, none, ?_, rfl,
              by simp⟩
            rw [isFormer, isNone]
        | gray location underlying isPlace known isValue wasRead =>
            rw [ColorSpace.read_grayPatternSpace] at read
            obtain rfl := Except.ok.inj read
            refine ⟨_, told wasRead, rfl, some (.patternOver underlying), ?_, rfl, fun _ => rfl⟩
            rw [isFormer, isPlace, Option.bind_some, known]

/-- A scene tells the same as long as the resources have the same color spaces. -/
theorem Scene.TellsAs.of_sameSpaces {kind : Object → Prop} {original : Document}
    {resources : Resources} (tells : scene.TellsAs kind ⟨original, scene.resources⟩)
    (same : resources.SameSpaces scene.resources) : scene.TellsAs kind ⟨original, resources⟩ where
  agree := tells.agree
  told name space own found := by
    have told := tells.told name space own found
    rwa [same.colorSpace_eq] at told

namespace Conversion
open Change

variable {location : Option ObjectId} {content bytes : Bytes} {left : Scene}

/-- A stream that is converted is entered, read, walked through and written. -/
theorem mapM_of_converts (done : Converts location content scene bytes left) :
    ∃ depth start finish operations replacements, entering location scene = .ok start ∧
      Content.read content = .ok operations ∧
      operations.mapM (convertOperation (convertStream depth)) start = .ok replacements finish ∧
      Content.write replacements = .ok bytes := by
  rcases done with ⟨rfl, done⟩ | ⟨depth, names, done⟩
  · obtain ⟨start, operations, replacements, finish, middle, entered, read, mapped, wrote, -⟩ :=
      contentToGray_eq_ok done
    exact ⟨_, start, finish, operations, replacements, entered, read, mapped, wrote⟩
  · cases depth with
    | zero => simp [convertStream, bind_eq_ok, throw_eq_ok] at done
    | succ depth =>
        obtain ⟨start, operations, replacements, finish, entered, read, mapped, wrote, -⟩ :=
          convertStream_eq_ok done
        exact ⟨depth, start, finish, operations, replacements, entered, read, mapped, wrote⟩

/-- A walk below resources in a document that is as it was. -/
structure IsUsual (layout : Layout) (resources : Resources) (options : Options) (walk : Walk) :
    Prop where
  kept : layout.keeping.walk walk
  level : ∃ trail, (Keeping.level trail options).walk walk
  spaces : resources.SameSpaces walk.resources

section Walking

variable {resources : Resources} {options : Options} {walk after : Walk}

/-- Such a walk tells the spaces that the names of the resources stood for at first. -/
theorem IsUsual.tellsAs (usual : IsUsual layout resources options walk) :
    walk.toScene.TellsAs layout.IsShared ⟨layout.original, resources⟩ :=
  Scene.TellsAs.of_sameSpaces (usual.kept.1.tellsAs usual.kept.2) usual.spaces

/-- Such a walk goes on as one. -/
theorem IsUsual.convertOperation (named : layout.OnlyNamed) {depth : Nat}
    {operation converted : Operation} (usual : IsUsual layout resources options walk)
    (done : convertOperation (convertStream depth) operation walk = .ok converted after) :
    IsUsual layout resources options after where
  kept := ((alike_convertOperation (lawful_keeping named) (keepsLayout_convertStream named depth)
    operation walk).of_ok usual.kept done).2
  level := by
    obtain ⟨trail, level⟩ := usual.level
    exact ⟨trail, ((alike_convertOperation lawful_level (fun _ _ _ => keeps_convertStream _ _ _ _)
      operation walk).of_ok level done).2⟩
  spaces := trans_of _ usual.spaces
    ((keepsSpaces_convertOperation (keepsSpaces_convertStream depth) operation).of_ok done)

end Walking

/-- Content is converted to what it becomes in a scope that the walk tells: every color is told in the
space that its name stood for at first, whatever was converted before. -/
theorem grayContent_of_converts {kind : Object → Prop} {scope : Scope} (named : layout.OnlyNamed)
    (keeps : layout.Keeps scene.converter.formerSpaces scene.document)
    (has : layout.HasResources scene.resources)
    (told : ∀ other : Scene, layout.Keeps other.converter.formerSpaces other.document →
      other.TellsAs layout.IsShared ⟨layout.original, scene.resources⟩ → other.TellsAs kind scope)
    (plain : ∀ operations, Content.read content = .ok operations → ∀ operation ∈ operations,
      operation.HasPlainImage kind scope)
    (done : Converts location content scene bytes left) :
    grayContent scene.converter.options scope content = .ok bytes := by
  obtain ⟨depth, start, finish, operations, replacements, entered, read, mapped, wrote⟩ :=
    mapM_of_converts done
  obtain ⟨trail, _, same⟩ := Outcome.bind_eq_ok.1 entered
  obtain rfl := Outcome.pure_eq_ok.1 same
  have usual : IsUsual layout scene.resources scene.converter.options
      ⟨Scene.inside.setTrail trail scene, default, {}, {}, {}, {}⟩ :=
    ⟨⟨keeps, has⟩, ⟨trail, ⟨rfl, rfl⟩, trivial⟩, refl_of _ _⟩
  have converts := grayOperations_of_mapM (remembers_convertStream depth)
    (fun walk (usual : IsUsual layout scene.resources scene.converter.options walk) =>
      told walk.toScene usual.kept.1 usual.tellsAs)
    (fun walk usual => usual.level.elim fun trail level => level.1.2)
    (fun operation walk converted after usual done => usual.convertOperation named done)
    (plain operations read) usual mapped
  refine Outcome.bind_eq_ok.2 ⟨operations, read, ?_⟩
  exact Outcome.bind_eq_ok.2 ⟨replacements, converts, wrote⟩

end Conversion
end Monochrome
