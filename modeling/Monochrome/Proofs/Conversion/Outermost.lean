import Monochrome.Proofs.Conversion.PatternSpaces

/-!
# The outermost stream

Content that is converted to gray with a converter of any history, and with the document and
resources that the conversion leaves, is replayed as the walk went through it, exactly if the
pattern spaces that it selects by name are still read as such.  Those that were written as pattern
spaces when the walk ended are, unless their place was remembered already.
-/

namespace Monochrome
namespace Conversion
open Change

variable {scene after : Scene} {content bytes : Bytes}

/-- A change inside a stream succeeds if the stream can be entered and the change succeeds there. -/
theorem inside_eq_ok {α : Type} {location : Option ObjectId} {step : Change Scene α} {value : α} :
    Scene.inside location step scene = .ok value after ↔
      ∃ trail middle,
        scene.converter.trail.enter scene.converter.options.maxNestingDepth location = .ok trail ∧
        step (Scene.inside.setTrail trail scene) = .ok value middle ∧
        Scene.inside.setTrail middle.converter.trail.leave middle = after := by
  unfold Scene.inside
  cases scene.converter.trail.enter scene.converter.options.maxNestingDepth location with
  | error fault => simp
  | ok trail =>
      cases atStep : step (Scene.inside.setTrail trail scene) with
      | error fault middle => simp [atStep]
      | ok result middle => simp [atStep, and_assoc]

/-- A stream is gone through by a walk that begins with the first colors and no names. -/
theorem through_eq_ok {α : Type} {step : Change Walk α} {value : α} {names : Names} :
    Walk.through step scene = .ok (value, names) after ↔
      ∃ finish, step ⟨scene, default, {}, {}, {}, {}⟩ = .ok value finish ∧
        finish.patternSpaces = names ∧ finish.toScene = after := by
  unfold Walk.through
  cases step ⟨scene, default, {}, {}, {}, {}⟩ with
  | error fault middle => simp
  | ok result finish =>
      constructor
      · rintro ⟨⟩
        exact ⟨finish, rfl, rfl, rfl⟩
      · rintro ⟨_, ⟨⟩, rfl, rfl⟩
        rfl

/-- The walk through a stream as it begins. -/
def entering (location : Option ObjectId) (scene : Scene) : Outcome Walk := do
  let limit := scene.converter.options.maxNestingDepth
  return ⟨Scene.inside.setTrail (← scene.converter.trail.enter limit location) scene,
    default, {}, {}, {}, {}⟩

/-- The scene after a walk through a stream: the stream is counted, and no longer on the trail. -/
def leaving (finish : Walk) : Scene :=
  let scene := Scene.inside.setTrail finish.converter.trail.leave finish.toScene
  let counts := scene.converter.statistics
  let counts := { counts with streamsConverted := counts.streamsConverted + 1 }
  { scene with converter := { scene.converter with statistics := counts } }

/-- A stream that is converted is entered, read, walked through, written and left. -/
theorem convertStream_eq_ok_leaving {depth : Nat} {location : Option ObjectId} {names : Names}
    (done : convertStream (depth + 1) location content scene = .ok (bytes, names) after) :
    ∃ start operations converted finish,
      entering location scene = .ok start ∧ Content.read content = .ok operations ∧
      operations.mapM (convertOperation (convertStream depth)) start = .ok converted finish ∧
      Content.write converted = .ok bytes ∧ finish.patternSpaces = names ∧
      after = leaving finish := by
  unfold convertStream at done
  simp only [bind_eq_ok, pure_eq_ok, inside_eq_ok] at done
  obtain ⟨⟨_, _⟩, _, ⟨trail, _, entered, through, rfl⟩, _, _, atCount, same, rfl⟩ := done
  obtain ⟨rfl, rfl⟩ := Prod.mk.inj same
  obtain ⟨finish, walk, rfl, rfl⟩ := through_eq_ok.1 through
  simp only [convertOperations, bind_eq_ok, lift_eq_ok] at walk
  obtain ⟨operations, _, ⟨read, rfl⟩, converted, _, mapped, wrote, rfl⟩ := walk
  obtain ⟨_, counted, rfl⟩ := within_eq_ok.1 atCount
  rw [← modify_eq_ok.1 counted]
  refine ⟨_, operations, converted, _, ?_, read, mapped, wrote, rfl, rfl⟩
  simp only [entering, entered]
  rfl

/-- A stream that is converted is entered, read, walked through and written.  What is counted and
the trail aside, the scene is left as the walk ends. -/
theorem convertStream_eq_ok {depth : Nat} {location : Option ObjectId} {names : Names}
    (done : convertStream (depth + 1) location content scene = .ok (bytes, names) after) :
    ∃ start operations converted finish,
      entering location scene = .ok start ∧ Content.read content = .ok operations ∧
      operations.mapM (convertOperation (convertStream depth)) start = .ok converted finish ∧
      Content.write converted = .ok bytes ∧ finish.patternSpaces = names ∧
      after.scope = finish.scope ∧
      after.converter.formerSpaces = finish.converter.formerSpaces := by
  obtain ⟨start, operations, converted, finish, entered, read, mapped, wrote, isNames, rfl⟩ :=
    convertStream_eq_ok_leaving done
  exact ⟨start, operations, converted, finish, entered, read, mapped, wrote, isNames, rfl, rfl⟩

/-- How the streams are converted that the outermost one paints with. -/
def innerConversion (scene : Scene) : StreamConversion :=
  convertStream (scene.converter.options.maxNestingDepth + 1)

/-- Content that is converted is read, walked through and written, and then the pattern spaces that
the walk noted become gray. -/
theorem contentToGray_eq_ok (done : contentToGray content scene = .ok bytes after) :
    ∃ start operations converted finish middle,
      entering none scene = .ok start ∧ Content.read content = .ok operations ∧
      operations.mapM (convertOperation (innerConversion scene)) start = .ok converted finish ∧
      Content.write converted = .ok bytes ∧
      middle.scope = finish.scope ∧
      middle.converter.formerSpaces = finish.converter.formerSpaces ∧
      finish.patternSpaces.toList.forM convertPatternSpace middle = .ok ⟨⟩ after := by
  simp only [contentToGray, convertOwn, streamConversion, Trail.levels, bind_eq_ok, get_eq_ok,
    pure_eq_ok] at done
  obtain ⟨_, _, ⟨rfl, rfl⟩, ⟨_, names⟩, middle, converts, _, _, settled, rfl, rfl⟩ := done
  obtain ⟨start, operations, converted, finish, entered, read, mapped, wrote, rfl, sameScope,
    sameSpaces⟩ := convertStream_eq_ok converts
  exact ⟨start, operations, converted, finish, middle, entered, read, mapped, wrote, sameScope,
    sameSpaces, settled⟩

/-- What a scene keeps of a named pattern space depends on its scope and on what its converter
remembers. -/
theorem keepsPattern_of_eq {middle : Scene} {name : String} (keeps : scene.KeepsPattern name)
    (sameScope : middle.scope = scene.scope)
    (sameSpaces : middle.converter.formerSpaces = scene.converter.formerSpaces) :
    middle.KeepsPattern name where
  holds := sameScope ▸ keeps.holds
  settled known := by
    rw [sameScope]
    apply keeps.settled
    obtain ⟨place, atPlace, remembered⟩ := known
    exact ⟨place, sameScope ▸ atPlace, sameSpaces ▸ remembered⟩

/-- Content that selects a pattern space by a name. -/
def selectingContent : Bytes :=
  Bytes.ascii "q /Tiles cs Q"

/-- Resources of a new converter in which the name is that of a pattern space over colors. -/
def selectingScene : Scene :=
  let space := Object.array [.named "Pattern", .named "DeviceRGB"]
  let spaces := Object.dictionary (Table.ofList [(Bytes.ascii "Tiles", space)])
  ⟨⟨⟨Table.empty, Table.empty, 0⟩, {}⟩, .direct (Table.ofList [(Bytes.ascii "ColorSpace", spaces)])⟩

/-- The content of a conversion that succeeds. -/
def converted? (result : EStateM.Result Fault Scene Bytes) : Option Bytes :=
  match result with
  | .ok bytes _ => some bytes
  | .error _ _ => none

/-- The content that selects a pattern space is converted, line by line. -/
theorem contentToGray_selectingContent :
    ∃ after, contentToGray selectingContent selectingScene =
      .ok (Bytes.ascii "q\n/Tiles cs\nQ\n") after := by
  have computed : converted? (contentToGray selectingContent selectingScene) =
      some (Bytes.ascii "q\n/Tiles cs\nQ\n") := by decide +kernel
  cases done : contentToGray selectingContent selectingScene with
  | ok bytes after =>
      rw [done] at computed
      obtain rfl := Option.some.inj computed
      exact ⟨after, rfl⟩
  | error fault after => simp [done, converted?] at computed

end Conversion
end Monochrome
