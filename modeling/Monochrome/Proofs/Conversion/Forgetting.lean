import Monochrome.Proofs.Conversion.Outermost
import Monochrome.Proofs.Mirroring

/-!
# Converters that forget

Two converters can have the same options and the same trail while one of them forgot some of what
was remembered at some time.  A step that asks neither converter for a space is mirrored from the
one to the other: changes of the document and of the resources, counting, going into streams and
through them.
-/

namespace Monochrome

/-- Whether one converter remembers what another does, but for some of what was remembered at the
start.  Both have the options and the trail of the start. -/
structure Converter.Forgets (start remembering forgetful : Converter) : Prop where
  options : remembering.options = start.options
  sameOptions : forgetful.options = remembering.options
  trail : remembering.trail = start.trail
  sameTrail : forgetful.trail = remembering.trail
  remembered : ∀ location space, forgetful.formerSpaces.find? location = some space →
    remembering.formerSpaces.find? location = some space
  forgotten : ∀ location space, remembering.formerSpaces.find? location = some space →
    forgetful.formerSpaces.find? location = some space ∨
      start.formerSpaces.find? location = some space

namespace Converter
namespace Forgets

variable {start remembering forgetful : Converter}

/-- A converter that knows nothing yet forgets all that another one remembers. -/
theorem of_new (remembering : Converter) (atBegin : remembering.trail = []) :
    remembering.Forgets remembering { options := remembering.options } where
  options := rfl
  sameOptions := rfl
  trail := rfl
  sameTrail := atBegin.symm
  remembered _ _ found := by simp at found
  forgotten _ _ found := Or.inr found

/-- Both converters count. -/
theorem count (forgets : start.Forgets remembering forgetful) (change : Statistics → Statistics) :
    start.Forgets { remembering with statistics := change remembering.statistics }
      { forgetful with statistics := change forgetful.statistics } :=
  { forgets with }

/-- Both converters go to another trail. -/
theorem withTrail (forgets : start.Forgets remembering forgetful) (trail : Trail) :
    Forgets { start with trail := trail } { remembering with trail := trail }
      { forgetful with trail := trail } :=
  { forgets with trail := rfl, sameTrail := rfl }

/-- Both converters remember another space. -/
theorem insert (forgets : start.Forgets remembering forgetful) (location : EntryLocation)
    (space : ColorSpace Float32 Float) :
    start.Forgets
      { remembering with formerSpaces := remembering.formerSpaces.insert location space }
      { forgetful with formerSpaces := forgetful.formerSpaces.insert location space } :=
  { forgets with
    remembered := fun place found isFound => by
      simp only [Table.find?_insert] at isFound ⊢
      split_ifs at isFound ⊢
      · exact isFound
      · exact forgets.remembered place found isFound
    forgotten := fun place found isFound => by
      simp only [Table.find?_insert] at isFound ⊢
      split_ifs at isFound ⊢
      · exact Or.inl isFound
      · exact forgets.forgotten place found isFound }

/-- The forgetful converter is told again what the other one remembers. -/
theorem remind (forgets : start.Forgets remembering forgetful) {location : EntryLocation}
    {space : ColorSpace Float32 Float}
    (known : remembering.formerSpaces.find? location = some space) :
    start.Forgets remembering
      { forgetful with formerSpaces := forgetful.formerSpaces.insert location space } :=
  { forgets with
    remembered := fun place found isFound => by
      simp only [Table.find?_insert] at isFound
      split at isFound
      · rename_i same
        exact same ▸ known.trans isFound
      · exact forgets.remembered place found isFound
    forgotten := fun place found isFound => by
      simp only [Table.find?_insert]
      split
      · rename_i same
        exact Or.inl (known.symm.trans (same ▸ isFound))
      · exact forgets.forgotten place found isFound }

/-- Where nothing is remembered there is nothing to forget. -/
theorem size_eq_zero (forgets : start.Forgets remembering forgetful)
    (isNew : remembering.formerSpaces.size = 0) : forgetful.formerSpaces.size = 0 := by
  rw [Table.size_eq_zero] at isNew ⊢
  intro location
  by_contra found
  obtain ⟨space, found⟩ := Option.ne_none_iff_exists'.1 found
  simpa [isNew] using forgets.remembered location space found

/-- Both converters know the same of a location, or what one of them forgot was remembered at the
start. -/
theorem find?_cases (forgets : start.Forgets remembering forgetful) (location : EntryLocation) :
    forgetful.formerSpaces.find? location = remembering.formerSpaces.find? location ∨
      forgetful.formerSpaces.find? location = none ∧ ∃ space,
        remembering.formerSpaces.find? location = some space ∧
          start.formerSpaces.find? location = some space := by
  cases isForgetful : forgetful.formerSpaces.find? location with
  | some space => exact Or.inl (forgets.remembered location space isForgetful).symm
  | none =>
      cases isFormer : remembering.formerSpaces.find? location with
      | none => exact Or.inl rfl
      | some space =>
          refine Or.inr ⟨rfl, space, rfl, ?_⟩
          exact (forgets.forgotten location space isFormer).resolve_left (by simp [isForgetful])

end Forgets
end Converter

/-- Whether one job is another one whose converter forgets. -/
def Job.Forgets (start : Converter) (job other : Job) : Prop :=
  ∃ converter, start.Forgets job.converter converter ∧ other = { job with converter := converter }

/-- Whether one scene is another one whose converter forgets. -/
def Scene.Forgets (start : Converter) (scene other : Scene) : Prop :=
  ∃ converter, start.Forgets scene.converter converter ∧
    other = { scene with converter := converter }

/-- Whether one walk is another one whose converter forgets. -/
def Walk.Forgets (start : Converter) (walk other : Walk) : Prop :=
  ∃ converter, start.Forgets walk.converter converter ∧ other = { walk with converter := converter }

open Change

variable {α : Type} {start : Converter} {job : Job} {scene : Scene} {walk : Walk}

namespace Job

/-- Reading the job is mirrored if what follows goes only by the options of the converter. -/
theorem isMirrored_get_bind {β : Type} {next : Job → Change Job β}
    (same : ∀ converter, converter.options = job.converter.options →
      next { job with converter := converter } = next job)
    (mirrored : IsMirrored (Job.Forgets start) (next job) job) :
    IsMirrored (Job.Forgets start) (get >>= next) job := by
  refine Change.isMirrored_get_bind ?_ mirrored
  rintro _ ⟨converter, forgets, rfl⟩
  exact same converter forgets.sameOptions

/-- A change of the document is mirrored. -/
theorem isMirrored_onDocument (step : Change Document α) :
    IsMirrored (Job.Forgets start) (onDocument step) job := by
  refine (isMirrored_eq step).within ?_ ?_
  · rintro _ ⟨converter, forgets, rfl⟩
    rfl
  · rintro _ changed _ ⟨converter, forgets, rfl⟩ rfl
    exact ⟨converter, forgets, rfl⟩

/-- Counting is mirrored. -/
theorem isMirrored_count (change : Statistics → Statistics) :
    IsMirrored (Job.Forgets start) (count change) job := by
  refine isMirrored_modify ?_
  rintro _ ⟨converter, forgets, rfl⟩
  exact ⟨_, forgets.count change, rfl⟩

/-- A change under other resources is mirrored if it is in the scene. -/
theorem isMirrored_withResources {step : Change Scene α} {resources : Resources}
    (mirrored : IsMirrored (Scene.Forgets start) step ⟨job, resources⟩) :
    IsMirrored (Job.Forgets start) (withResources resources step) job := by
  rintro _ ⟨value, left⟩ after ⟨converter, forgets, rfl⟩ done
  unfold withResources at done ⊢
  split at done
  · rename_i result scene atStep
    obtain ⟨same, rfl⟩ := EStateM.Result.ok.inj done
    obtain ⟨rfl, rfl⟩ := Prod.mk.inj same
    obtain ⟨_, atOther, later, laterForgets, rfl⟩ :=
      mirrored _ result scene ⟨converter, forgets, rfl⟩ atStep
    refine ⟨_, ?_, later, laterForgets, rfl⟩
    dsimp only at atOther ⊢
    rw [atOther]
  · simp at done

end Job

namespace Scene

/-- Reading the scene is mirrored if what follows goes only by the options of the converter. -/
theorem isMirrored_get_bind {β : Type} {next : Scene → Change Scene β}
    (same : ∀ converter, converter.options = scene.converter.options →
      next { scene with converter := converter } = next scene)
    (mirrored : IsMirrored (Scene.Forgets start) (next scene) scene) :
    IsMirrored (Scene.Forgets start) (get >>= next) scene := by
  refine Change.isMirrored_get_bind ?_ mirrored
  rintro _ ⟨converter, forgets, rfl⟩
  exact same converter forgets.sameOptions

/-- A change of the document or the resources is mirrored. -/
theorem isMirrored_onScope (step : Change Scope α) :
    IsMirrored (Scene.Forgets start) (onScope step) scene := by
  refine (isMirrored_eq step).within ?_ ?_
  · rintro _ ⟨converter, forgets, rfl⟩
    rfl
  · rintro _ changed _ ⟨converter, forgets, rfl⟩ rfl
    exact ⟨converter, forgets, rfl⟩

/-- A change of the job is mirrored if it is there. -/
theorem isMirrored_onJob {step : Change Job α}
    (mirrored : IsMirrored (Job.Forgets start) step scene.toJob) :
    IsMirrored (Scene.Forgets start) (onJob step) scene := by
  refine mirrored.within ?_ ?_
  · rintro _ ⟨converter, forgets, rfl⟩
    exact ⟨converter, forgets, rfl⟩
  · rintro _ changed _ ⟨converter, forgets, rfl⟩ ⟨later, laterForgets, rfl⟩
    exact ⟨later, laterForgets, rfl⟩

/-- A change inside a stream is mirrored if it is there. -/
theorem isMirrored_inside {step : Change Scene α} {location : Option ObjectId}
    (mirrored : ∀ trail,
      scene.converter.trail.enter scene.converter.options.maxNestingDepth location = .ok trail →
      IsMirrored (Scene.Forgets { start with trail := trail }) step (inside.setTrail trail scene)) :
    IsMirrored (Scene.Forgets start) (inside location step) scene := by
  rintro _ value after ⟨converter, forgets, rfl⟩ done
  obtain ⟨trail, middle, entered, atStep, rfl⟩ := Conversion.inside_eq_ok.1 done
  obtain ⟨_, atOther, later, laterForgets, rfl⟩ :=
    mirrored trail entered _ value middle ⟨_, forgets.withTrail trail, rfl⟩ atStep
  have enteredToo :
      converter.trail.enter converter.options.maxNestingDepth location = .ok trail := by
    rw [forgets.sameTrail, forgets.sameOptions]
    exact entered
  refine ⟨_, Conversion.inside_eq_ok.2 ⟨trail, _, enteredToo, atOther, rfl⟩, ?_⟩
  have left : middle.converter.trail.leave = start.trail := by
    rw [laterForgets.trail, Trail.leave_of_enter entered, forgets.trail]
  have leftToo : later.trail.leave = start.trail := by
    rw [laterForgets.sameTrail, left]
  refine ⟨{ later with trail := start.trail }, ?_, ?_⟩
  · unfold inside.setTrail
    rw [left]
    exact laterForgets.withTrail start.trail
  · simp only [inside.setTrail, leftToo]

end Scene

namespace Walk

/-- Reading the walk is mirrored if what follows goes only by the options of the converter. -/
theorem isMirrored_get_bind {β : Type} {next : Walk → Change Walk β}
    (same : ∀ converter, converter.options = walk.converter.options →
      next { walk with converter := converter } = next walk)
    (mirrored : IsMirrored (Walk.Forgets start) (next walk) walk) :
    IsMirrored (Walk.Forgets start) (get >>= next) walk := by
  refine Change.isMirrored_get_bind ?_ mirrored
  rintro _ ⟨converter, forgets, rfl⟩
  exact same converter forgets.sameOptions

/-- A change of the scene is mirrored if it is there. -/
theorem isMirrored_onScene {step : Change Scene α}
    (mirrored : IsMirrored (Scene.Forgets start) step walk.toScene) :
    IsMirrored (Walk.Forgets start) (onScene step) walk := by
  refine mirrored.within ?_ ?_
  · rintro _ ⟨converter, forgets, rfl⟩
    exact ⟨converter, forgets, rfl⟩
  · rintro _ changed _ ⟨converter, forgets, rfl⟩ ⟨later, laterForgets, rfl⟩
    exact ⟨later, laterForgets, rfl⟩

/-- A change of the job is mirrored if it is there. -/
theorem isMirrored_onJob {step : Change Job α}
    (mirrored : IsMirrored (Job.Forgets start) step walk.toJob) :
    IsMirrored (Walk.Forgets start) (onJob step) walk :=
  isMirrored_onScene (Scene.isMirrored_onJob mirrored)

/-- Replacing a resource is mirrored. -/
theorem isMirrored_setResource (kind : ResourceKind) (name : String) (value : Object) :
    IsMirrored (Walk.Forgets start) (setResource kind name value) walk :=
  isMirrored_onScene (Scene.isMirrored_onScope _)

/-- Counting is mirrored. -/
theorem isMirrored_count (change : Statistics → Statistics) :
    IsMirrored (Walk.Forgets start) (onJob (Job.count change)) walk :=
  isMirrored_onJob (Job.isMirrored_count change)

/-- Changing what a walk used is mirrored if what follows is. -/
theorem isMirrored_modify_bind {β : Type} {change : Walk → Walk} {next : PUnit → Change Walk β}
    (mirrored : IsMirrored (Walk.Forgets start) (next ⟨⟩) (change walk))
    (sameConverter : ∀ converter, change { walk with converter := converter } =
      { change walk with converter := converter })
    (keeps : (change walk).converter = walk.converter) :
    IsMirrored (Walk.Forgets start) (modify change >>= next) walk := by
  refine Change.isMirrored_modify_bind ?_ mirrored
  rintro _ ⟨converter, forgets, rfl⟩
  exact ⟨converter, keeps ▸ forgets, sameConverter converter⟩

/-- Going through a stream is mirrored if the walk is. -/
theorem isMirrored_through {step : Change Walk α}
    (mirrored : IsMirrored (Walk.Forgets start) step ⟨scene, default, {}, {}, {}, {}⟩) :
    IsMirrored (Scene.Forgets start) (through step) scene := by
  rintro _ ⟨value, names⟩ after ⟨converter, forgets, rfl⟩ done
  obtain ⟨finish, atStep, rfl, rfl⟩ := Conversion.through_eq_ok.1 done
  obtain ⟨_, atOther, later, laterForgets, rfl⟩ :=
    mirrored _ value finish ⟨converter, forgets, rfl⟩ atStep
  exact ⟨_, Conversion.through_eq_ok.2 ⟨_, atOther, rfl, rfl⟩, later, laterForgets, rfl⟩

end Walk
end Monochrome
