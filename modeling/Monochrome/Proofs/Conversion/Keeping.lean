import Mathlib.Data.List.Basic
import Mathlib.Tactic.SplitIfs
import Monochrome.Conversion.Stream
import Monochrome.Proofs.Keeping
import Monochrome.Proofs.Object.Parts
import Monochrome.Proofs.Resources.Replacing

/-!
# What a conversion keeps

What holds of a job, of the resources under which content is read and of what is painted with holds
to the end of a conversion, if each of the few steps that touch them keeps it.  Two conversions of
nested streams that come to the same as long as it holds cannot be told apart by the stream that
paints them.
-/

namespace Monochrome

namespace Dictionary

/-- Whether a dictionary has no resources and no shading that another one does not have. -/
def Within (dictionary other : Dictionary) : Prop :=
  ∀ entry ∈ dictionary.entries,
    entry.1 = Bytes.ascii "Resources" ∨ entry.1 = Bytes.ascii "Shading" → entry ∈ other.entries

variable {dictionary other : Dictionary}

/-- Another key does not matter. -/
theorem Within.set (within : dictionary.Within other) {key : String} (value : Object)
    (isOther : Bytes.ascii key ≠ Bytes.ascii "Resources" ∧
      Bytes.ascii key ≠ Bytes.ascii "Shading") : (dictionary.set key value).Within other := by
  intro entry isEntry isPlace
  rcases Table.mem_insert isEntry with rfl | isOld
  · exact absurd isPlace (not_or.2 isOther)
  · exact within entry isOld isPlace

/-- A removed key does not matter. -/
theorem Within.remove (within : dictionary.Within other) (key : String) :
    (dictionary.remove key).Within other :=
  fun entry isEntry => within entry (Table.mem_erase isEntry)

/-- Other keys do not matter. -/
theorem Within.setAll {additions : List (String × Object)} (within : dictionary.Within other)
    (areOthers : ∀ addition ∈ additions, Bytes.ascii addition.1 ≠ Bytes.ascii "Resources" ∧
      Bytes.ascii addition.1 ≠ Bytes.ascii "Shading") :
    (additions.foldl (fun (entries : Dictionary) (key, value) => entries.set key value)
      dictionary).Within other := by
  induction additions generalizing dictionary with
  | nil => exact within
  | cons addition rest inductionHypothesis =>
      exact inductionHypothesis (within.set addition.2 (areOthers addition List.mem_cons_self))
        fun later isLater => areOthers later (List.mem_cons_of_mem _ isLater)

/-- Removed keys do not matter. -/
theorem Within.removeAll (within : dictionary.Within other) (keys : List String) :
    (keys.foldl Dictionary.remove dictionary).Within other := by
  induction keys generalizing dictionary with
  | nil => exact within
  | cons key rest inductionHypothesis => exact inductionHypothesis (within.remove key)

end Dictionary

/-- Other content does not touch the resources and the shading of a stream. -/
theorem Stream.within_setContent (stream : Stream) (content : Bytes) (compress : Bool) :
    (stream.setContent content compress).entries.Within stream.entries := by
  have removed : ((stream.entries.remove "DecodeParms").remove "Filter").Within stream.entries :=
    Dictionary.Within.remove (Dictionary.Within.remove (fun _ isEntry _ => isEntry) _) _
  unfold setContent
  split
  · exact (removed.set _ (by decide)).set _ (by decide)
  · exact removed.set _ (by decide)

/-- Another color space does not touch the resources and the shading of an image. -/
theorem ImageObject.within_withColorSpace (image : Stream) (space : Object) :
    (withColorSpace image space).entries.Within image.entries :=
  Dictionary.Within.set (fun _ isEntry _ => isEntry) _ (by decide)

/-- Other samples do not touch the resources and the shading of an image. -/
theorem ImageObject.within_withGray (image : Stream) (gray : GrayImage) (encoder : ImageEncoder)
    (data : Bytes) : (withGray image gray encoder data).entries.Within image.entries := by
  have removed : (otherEntries image).Within image.entries := by
    have kept : (sampleKeys.foldl Dictionary.remove image.entries).Within image.entries :=
      Dictionary.Within.removeAll (fun _ isEntry _ => isEntry) _
    unfold otherEntries
    dsimp only
    split
    · exact kept.remove _
    · exact kept
  refine Dictionary.Within.set (removed.setAll ?_) _ (by decide)
  intro addition isAddition
  simp only [List.cons_append, List.nil_append, List.mem_cons, List.mem_append, List.mem_map]
    at isAddition
  rcases isAddition with rfl | rfl | rfl | rfl | ⟨_, _, rfl⟩ | ⟨_, _, rfl⟩ <;> dsimp only <;> decide

/-- A shading pattern has the value of its shading, and the number under which that is stored. -/
theorem Pattern.readShading_eq_ok {document : Document} {entries : Dictionary} {pattern : Pattern} :
    readShading document entries = .ok pattern ↔
      ∃ entry location value, entries.get? "Shading" = some entry ∧
        document.resolveWithId entry = .ok (location, value) ∧
          shading entries value location = pattern := by
  unfold readShading
  cases entries.get? "Shading" with
  | none => simp [Outcome.throw_eq_ok]
  | some entry => simp [Outcome.map_eq_ok]

namespace Conversion
open Change

/-- What is to be kept: of a job, of the resources under which content is read, of the dictionaries
of what is painted with, and of the places in which shadings are stored. -/
structure Keeping where
  job : Job → Prop
  resources : Resources → Prop
  painted : Dictionary → Prop
  place : ObjectId → Prop

namespace Keeping

/-- What is to be kept of a scene. -/
def scene (keeping : Keeping) (scene : Scene) : Prop :=
  keeping.job scene.toJob ∧ keeping.resources scene.resources

/-- What is to be kept of a walk. -/
def walk (keeping : Keeping) (walk : Walk) : Prop :=
  keeping.scene walk.toScene

/-- What is to be kept of an object that is painted with, which stands for itself. -/
structure object (keeping : Keeping) (value : Object) : Prop where
  isValue : value.isReference = false
  painted : ∀ entries, value.entries? = some entries → keeping.painted entries

/-- What is to be kept of a pattern. -/
def pattern (keeping : Keeping) : Pattern → Prop
  | .tiling cell _ => keeping.painted cell.stream.entries
  | .shading entries shading location =>
    keeping.painted entries ∧ keeping.object shading ∧ ∀ target ∈ location, keeping.place target

/-- Whether the steps that touch what is to be kept do so. -/
structure Lawful (keeping : Keeping) : Prop where
  count change job : Keeps keeping.job (fun _ => True) (Job.count change) job
  /-- Making a pattern space gray. -/
  settle name scene : Keeps keeping.scene (fun _ => True) (convertPatternSpace name) scene
  /-- Reading what is painted with by name. -/
  lookup scene kind name entry : keeping.scene scene → kind ≠ .colorSpace →
    scene.scope.lookup kind name = .ok entry → keeping.object entry.value
  /-- Reading the shading of a pattern. -/
  readShading job entries pattern : keeping.job job → keeping.painted entries →
    Pattern.readShading job.document entries = .ok pattern → keeping.pattern pattern
  /-- Reading the resources of a stream. -/
  own job entries own : keeping.job job → keeping.painted entries →
    Resources.ofOwner? job.document entries = .ok (some own) → keeping.resources own
  noResources : keeping.resources default
  /-- Changing anything but the resources and the shading of what is painted with. -/
  within entries others : keeping.painted entries → others.Within entries → keeping.painted others
  /-- Writing back the resources that are part of a stream. -/
  setResources entries own : keeping.painted entries → keeping.resources (.direct own) →
    keeping.painted (entries.set "Resources" (.dictionary own))
  /-- Storing a shading where that of a pattern was read. -/
  storeShading target shading job : keeping.place target → keeping.object shading →
    keeping.job job → keeping.job { job with document := job.document.store target shading }
  /-- Writing back the shading that is part of a pattern. -/
  setShading entries shading : keeping.painted entries → keeping.object shading →
    keeping.painted (entries.set "Shading" shading)
  /-- Replacing what is painted with. -/
  put kind name value scene : kind ≠ .colorSpace → keeping.object value →
    Keeps keeping.scene (fun _ => True) (Scene.onScope (Scope.set kind name value)) scene
  /-- Storing what a color space is made of. -/
  space (space : ColorSpace Float32 Float) job : Keeps keeping.job (fun _ => True)
    (Job.onDocument (Change.always id (fun document _ => document) space.toObject)) job

end Keeping

/-- Whether two ways to convert nested streams come to the same from every scene of which something
holds, and keep it. -/
def StreamConversion.Alike (keeping : Keeping) (convert other : StreamConversion) : Prop :=
  ∀ location content scene,
    Change.Alike keeping.scene (fun _ => True) (convert location content)
      (other location content) scene

variable {keeping : Keeping} {convert other : StreamConversion}

/-- A change of the scene is alike in a walk. -/
theorem alike_onScene {α : Type} {gives : α → Prop} {first second : Change Scene α} {walk : Walk}
    (alike : ∀ scene, Change.Alike keeping.scene gives first second scene) :
    Change.Alike keeping.walk gives (Walk.onScene first) (Walk.onScene second) walk :=
  (alike walk.toScene).within (fun held => held) fun _ _ held => held

/-- A change of the job is alike in a scene. -/
theorem alike_onJob {α : Type} {gives : α → Prop} {first second : Change Job α} {scene : Scene}
    (alike : ∀ job, Change.Alike keeping.job gives first second job) :
    Change.Alike keeping.scene gives (Scene.onJob first) (Scene.onJob second) scene :=
  (alike scene.toJob).within (fun held => held.1) fun _ held heldJob => ⟨heldJob, held.2⟩

/-- A change of the job is alike in a walk. -/
theorem alike_jobOfWalk {α : Type} {gives : α → Prop} {first second : Change Job α} {walk : Walk}
    (alike : ∀ job, Change.Alike keeping.job gives first second job) :
    Change.Alike keeping.walk gives (Walk.onJob first) (Walk.onJob second) walk :=
  alike_onScene fun _ => alike_onJob alike

/-- A change of what a walk used, and of its graphics state, keeps the rest. -/
theorem keeps_modifyWalk {change : Walk → Walk} {walk : Walk}
    (same : (change walk).toScene = walk.toScene) :
    Keeps keeping.walk (fun _ => True) (modify change : Change Walk PUnit) walk :=
  keeps_modify fun held => by
    unfold Keeping.walk
    rwa [same]

/-- A change under resources of its own is alike if it is in a scene. -/
theorem alike_withResources {α : Type} {gives : α → Prop} {first second : Change Scene α}
    {job : Job} {own : Resources} (held : keeping.resources own)
    (alike : ∀ scene, Change.Alike keeping.scene gives first second scene) :
    Change.Alike keeping.job (fun result => gives result.1 ∧ keeping.resources result.2)
      (Job.withResources own first) (Job.withResources own second) job := by
  intro heldJob
  obtain ⟨same, leaves⟩ := alike ⟨job, own⟩ ⟨heldJob, held⟩
  unfold Job.withResources
  rw [← same]
  cases atFirst : first ⟨job, own⟩ with
  | ok value after =>
      rw [atFirst] at leaves
      exact ⟨rfl, ⟨leaves.1, leaves.2.2⟩, leaves.2.1⟩
  | error fault after =>
      rw [atFirst] at leaves
      exact ⟨rfl, leaves.1⟩

/-- Going through a stream is alike if the walks are. -/
theorem alike_through {α : Type} {gives : α → Prop} {first second : Change Walk α} {scene : Scene}
    (alike : ∀ walk, Change.Alike keeping.walk gives first second walk) :
    Change.Alike keeping.scene (fun _ => True) (Walk.through first) (Walk.through second) scene := by
  intro held
  obtain ⟨same, leaves⟩ := alike ⟨scene, default, {}, {}, {}, {}⟩ held
  unfold Walk.through
  rw [← same]
  cases atFirst : first ⟨scene, default, {}, {}, {}, {}⟩ with
  | ok value after =>
      rw [atFirst] at leaves
      exact ⟨rfl, trivial, leaves.2⟩
  | error fault after =>
      rw [atFirst] at leaves
      exact ⟨rfl, leaves⟩

section Painting

variable (lawful : keeping.Lawful) (alike : convert.Alike keeping other)

section Lawful
include lawful

/-- Something is counted. -/
theorem keeps_count (change : Statistics → Statistics) (walk : Walk) :
    Keeps keeping.walk (fun _ => True) (Walk.onJob (Job.count change)) walk :=
  alike_jobOfWalk fun _ => lawful.count change _

/-- What is painted with is replaced. -/
theorem keeps_setResource {kind : ResourceKind} {value : Object} (isPainted : kind ≠ .colorSpace)
    (held : keeping.object value) (name : String) (walk : Walk) :
    Keeps keeping.walk (fun _ => True) (Walk.setResource kind name value) walk :=
  alike_onScene fun _ => lawful.put kind name value _ isPainted held

/-- A shading whose dictionary is changed keeps what is to be kept, if its own shading and resources
are not touched. -/
theorem object_changeEntries {shading : Object} {change : Dictionary → Dictionary}
    (held : keeping.object shading) (within : ∀ entries, (change entries).Within entries) :
    keeping.object (Shading.changeEntries change shading) := by
  cases shading with
  | dictionary entries =>
      refine ⟨rfl, ?_⟩
      rintro _ ⟨⟩
      exact lawful.within _ _ (held.painted entries rfl) (within entries)
  | stream entries data =>
      refine ⟨rfl, ?_⟩
      rintro _ ⟨⟩
      exact lawful.within _ _ (held.painted entries rfl) (within entries)
  | _ => exact held

/-- A shading is made gray, and what is to be kept is kept. -/
theorem keeps_shading {shading : Object} (held : keeping.object shading) (job : Job) :
    Keeps keeping.job keeping.object (Job.onDocument (Shading.toGray shading)) job := by
  have stored (gray : ColorSpace Float32 Float) (document : Document) :
      Keeps (fun document => keeping.job { job with document := document }) (fun _ => True)
        (Change.always id (fun document _ => document) gray.toObject) document :=
    keeps_of fun heldJob => (lawful.space gray { job with document := document } heldJob).2
  have changed : Keeps (fun document => keeping.job { job with document := document })
      keeping.object (Shading.toGray shading) job.document := by
    refine alike_get_bind fun _ => alike_lift_bind fun parts _ => ?_
    obtain ⟨gray, background⟩ := parts
    refine (stored gray _).bind fun space _ _ => keeps_pure ?_
    refine object_changeEntries lawful held fun entries => ?_
    have withSpace : (entries.set "ColorSpace" space).Within entries :=
      Dictionary.Within.set (fun _ isEntry _ => isEntry) _ (by decide)
    cases background with
    | none => exact withSpace
    | some values => exact withSpace.set _ (by decide)
  exact changed.within (fun heldJob => heldJob) fun _ _ heldJob => heldJob

/-- A pattern that is read is as it is to be kept. -/
theorem pattern_of_pattern {walk : Walk} {name : String} {pattern : Pattern}
    (held : keeping.walk walk) (read : walk.scope.pattern name = .ok pattern) :
    keeping.pattern pattern := by
  obtain ⟨entry, found, read⟩ := Outcome.bind_eq_ok.1 read
  have isPainted : keeping.object entry.value :=
    lawful.lookup walk.toScene .pattern name entry held (by decide) found
  unfold Pattern.read at read
  split at read
  · rename_i entries isEntries
    obtain ⟨patternType, _, read⟩ := Outcome.bind_eq_ok.1 read
    split at read
    · rename_i isStream _
      obtain ⟨paintType, _, read⟩ := Outcome.bind_eq_ok.1 read
      obtain rfl := Outcome.pure_eq_ok.1 read
      exact isPainted.painted _ (by rw [isStream]; rfl)
    · exact lawful.readShading walk.toJob entries pattern held.1
        (isPainted.painted entries isEntries) read
    · exact (Outcome.throw_eq_ok.1 read).elim
  · exact (Outcome.throw_eq_ok.1 read).elim

/-- An external object that is read is as it is to be kept. -/
theorem painted_of_xobject {walk : Walk} {name : String} {xobject : XObject}
    (held : keeping.walk walk) (read : walk.scope.xobject name = .ok xobject) :
    keeping.object xobject.toObject := by
  obtain ⟨entry, found, read⟩ := Outcome.bind_eq_ok.1 read
  have isPainted : keeping.object entry.value :=
    lawful.lookup walk.toScene .xobject name entry held (by decide) found
  unfold XObject.read at read
  split at read
  · rename_i isStream
    rw [isStream] at isPainted
    obtain ⟨subtype, _, read⟩ := Outcome.bind_eq_ok.1 read
    split at read <;> obtain rfl := Outcome.pure_eq_ok.1 read <;> exact isPainted
  · exact (Outcome.throw_eq_ok.1 read).elim

/-- Selecting a color space keeps what is to be kept. -/
theorem keeps_convertSpace (slot : Slot) (operation : Operation) (walk : Walk) :
    Keeps keeping.walk (fun _ => True) (convertSpace slot operation) walk := by
  have noted (name : String) (walk : Walk) :
      Keeps keeping.walk (fun _ => True) (noteSpace slot name) walk := by
    refine alike_get_bind fun _ => alike_lift_bind fun former _ => ?_
    have inserts (walk : Walk) : Keeps keeping.walk (fun _ => True) (modify fun walk : Walk =>
        { walk with patternSpaces := walk.patternSpaces.insert name }) walk :=
      keeps_modifyWalk rfl
    cases former with
    | some former => exact Alike.bind (keeps_modifyWalk (by rfl)) fun _ after _ => inserts after
    | none => exact inserts walk
  refine alike_get_bind fun _ => ?_
  split
  · refine alike_lift_bind fun name _ => ?_
    split
    · exact (noted name walk).bind fun _ _ _ => keeps_pure trivial
    · exact keeps_pure trivial
  · exact (keeps_count lawful _ walk).bind fun _ _ _ => keeps_pure trivial

/-- An image is converted to one that is as it is to be kept. -/
theorem keeps_convertImage {image : Stream} (held : keeping.painted image.entries) (job : Job) :
    Keeps keeping.job (fun gray => ∀ stream ∈ gray, keeping.painted stream.entries)
      (convertImage image) job := by
  have unchanged : ∀ stream ∈ (none : Option Stream), keeping.painted stream.entries := by
    rintro _ ⟨⟩
  refine alike_get_bind fun _ => alike_lift_bind fun isMask _ => ?_
  split
  · exact keeps_pure unchanged
  · refine alike_lift_bind fun space _ => alike_lift_bind fun task _ => ?_
    cases task with
    | keep => exact keeps_pure unchanged
    | replaceSpace gray =>
        refine (lawful.space gray job).bind fun object _ _ => keeps_pure ?_
        rintro _ ⟨⟩
        exact lawful.within _ _ held (ImageObject.within_withColorSpace image object)
    | replaceSamples space encoder =>
        refine alike_lift_bind fun samples _ => alike_lift_bind fun colors _ => ?_
        refine alike_lift_bind fun encoded _ => keeps_pure ?_
        rintro _ ⟨⟩
        exact lawful.within _ _ held (ImageObject.within_withGray image _ _ _)

/-- Converting an inline image keeps what is to be kept. -/
theorem keeps_convertInlineImage (image : Stream) (scene : Scene) :
    Keeps keeping.scene (fun _ => True) (convertInlineImage image) scene := by
  refine alike_get_bind fun _ => ?_
  split
  · exact keeps_pure trivial
  · refine alike_lift_bind fun space _ => alike_lift_bind fun task _ => ?_
    cases task with
    | keep => exact keeps_pure trivial
    | replaceSpace gray =>
        have stored : Keeps keeping.scene (fun _ => True)
            (Scene.onScope (Scope.onDocument gray.toObject)) scene :=
          alike_onJob (lawful.space gray)
        exact stored.bind fun _ _ _ => keeps_pure trivial
    | replaceSamples space encoder =>
        refine alike_lift_bind fun samples _ => alike_lift_bind fun colors _ => ?_
        refine (alike_onJob (lawful.count _)).bind fun _ _ _ => keeps_lift fun _ _ => trivial

/-- An operation that sets a color is counted. -/
theorem keeps_counted (operation : Operation) (walk : Walk) :
    Keeps keeping.walk (fun _ => True) (counted operation) walk :=
  (keeps_count lawful _ walk).bind fun _ _ _ => keeps_pure trivial

/-- Setting a color of red, green and blue keeps what is to be kept. -/
theorem keeps_convertRgb (slot : Slot) (operation : Operation) (walk : Walk) :
    Keeps keeping.walk (fun _ => True) (convertRgb slot operation) walk := by
  refine alike_lift_bind fun _ _ => alike_lift_bind fun values _ => ?_
  split
  · exact keeps_counted lawful _ walk
  · exact keeps_pure trivial

/-- Setting a color of four inks keeps what is to be kept. -/
theorem keeps_convertInks (slot : Slot) (operation : Operation) (walk : Walk) :
    Keeps keeping.walk (fun _ => True) (convertInks slot operation) walk := by
  refine alike_lift_bind fun _ _ => alike_lift_bind fun values _ => ?_
  split
  · exact keeps_counted lawful _ walk
  · exact keeps_pure trivial

/-- Converting a named shading keeps what is to be kept. -/
theorem keeps_convertNamedShading (name : String) (walk : Walk) :
    Keeps keeping.walk (fun _ => True) (convertNamedShading name) walk := by
  refine alike_get_bind fun held => ?_
  split
  · exact keeps_pure trivial
  · refine Alike.bind (keeps_modifyWalk (by rfl)) fun _ after _ => alike_lift_bind fun shading read => ?_
    obtain ⟨entry, found, isValue⟩ := Outcome.bind_eq_ok.1 read
    have isPainted : keeping.object shading := by
      obtain rfl := Outcome.pure_eq_ok.1 isValue
      exact lawful.lookup walk.toScene .shading name entry held (by decide) found
    refine (alike_jobOfWalk (keeps_shading lawful isPainted)).bind fun gray _ held => ?_
    refine (keeps_setResource lawful (by decide) held name _).bind fun _ _ _ => ?_
    exact keeps_count lawful _ _

end Lawful

include lawful alike

/-- The content of a stream and its pattern spaces are converted alike. -/
theorem alike_convertOwn (location : Option ObjectId) (content : Bytes) (scene : Scene) :
    Change.Alike keeping.scene (fun _ => True) (convertOwn convert location content)
      (convertOwn other location content) scene := by
  refine (alike location content scene).bind fun converted after _ => ?_
  exact (alike_forM lawful.settle _).bind fun _ _ _ => keeps_pure trivial

/-- A stream is converted alike under resources of its own. -/
theorem alike_convertContent (source : ContentStream) (content : Bytes) {own : Resources}
    (painted : keeping.painted source.stream.entries) (held : keeping.resources own) (job : Job) :
    Change.Alike keeping.job (fun gray => keeping.painted gray.stream.entries)
      (convertContent convert source content own) (convertContent other source content own) job := by
  have converted := alike_convertOwn lawful alike source.location content
  refine (alike_withResources held converted).bind fun result after given => ?_
  obtain ⟨gray, own⟩ := result
  refine alike_get_bind fun _ => ?_
  have rewritten := lawful.within _ _ painted (Stream.within_setContent source.stream gray
    after.converter.options.compressStreams)
  cases own with
  | direct entries => exact keeps_pure (lawful.setResources _ _ rewritten given.2)
  | indirect target => exact keeps_pure rewritten

/-- A pattern is converted alike. -/
theorem alike_convertPattern {pattern : Pattern} (held : keeping.pattern pattern) (job : Job) :
    Change.Alike keeping.job (fun gray => keeping.object gray.toObject)
      (convertPattern convert pattern) (convertPattern other pattern) job := by
  unfold convertPattern
  cases pattern with
  | tiling cell paintType =>
      have asObject {cell : ContentStream} (painted : keeping.painted cell.stream.entries) :
          keeping.object (Pattern.tiling cell paintType).toObject :=
        ⟨rfl, by rintro _ ⟨⟩; exact painted⟩
      dsimp only
      split
      · refine alike_get_bind fun heldJob => alike_lift_bind fun content _ => ?_
        refine alike_lift_bind fun own isOwn => ?_
        have heldOwn : keeping.resources (own.getD default) := by
          cases own with
          | none => exact lawful.noResources
          | some own => exact lawful.own job _ own heldJob held isOwn
        refine (alike_convertContent lawful alike cell content held heldOwn job).bind ?_
        exact fun gray _ painted => keeps_pure (asObject painted)
      · exact keeps_pure (asObject held)
  | shading entries shading location =>
      obtain ⟨painted, heldShading, heldPlace⟩ := held
      have asObject {entries : Dictionary} {shading : Object} {location : Option ObjectId}
          (painted : keeping.painted entries) :
          keeping.object (Pattern.shading entries shading location).toObject :=
        ⟨rfl, by rintro _ ⟨⟩; exact painted⟩
      refine (keeps_shading lawful heldShading job).bind fun gray after heldGray => ?_
      cases location with
      | none => exact keeps_pure (asObject (lawful.setShading _ _ painted heldGray))
      | some target =>
          have stored : Keeps keeping.job (fun _ => True) (Job.onDocument
              (modify fun document => document.store target gray)) after :=
            keeps_of fun heldJob =>
              ⟨trivial, lawful.storeShading target gray after (heldPlace target rfl) heldGray heldJob⟩
          exact stored.bind fun _ _ _ => keeps_pure (asObject painted)

/-- A named pattern is converted alike. -/
theorem alike_convertNamedPattern (name : String) (walk : Walk) :
    Change.Alike keeping.walk (fun _ => True) (convertNamedPattern convert name)
      (convertNamedPattern other name) walk := by
  refine alike_get_bind fun held => ?_
  split
  · exact keeps_pure trivial
  · refine Alike.bind (keeps_modifyWalk (by rfl)) fun _ after _ => alike_lift_bind fun pattern read => ?_
    have converted := alike_convertPattern lawful alike (pattern_of_pattern lawful held read)
    refine (alike_jobOfWalk converted).bind fun gray _ heldGray => ?_
    refine (keeps_setResource lawful (by decide) heldGray name _).bind fun _ _ _ => ?_
    exact keeps_count lawful _ _

/-- A form is converted alike. -/
theorem alike_convertForm {form : ContentStream} (held : keeping.painted form.stream.entries)
    (walk : Walk) :
    Change.Alike keeping.walk (fun gray => keeping.painted gray.stream.entries)
      (convertForm convert form) (convertForm other form) walk := by
  refine alike_get_bind fun heldWalk => alike_lift_bind fun content _ => ?_
  refine alike_lift_bind fun own isOwn => ?_
  cases own with
  | some own =>
      have heldOwn := lawful.own walk.toJob _ own heldWalk.1 held isOwn
      exact alike_jobOfWalk (alike_convertContent lawful alike form content held heldOwn)
  | none =>
      refine (alike_onScene (alike form.location content)).bind fun converted _ _ => ?_
      refine Alike.bind (keeps_modifyWalk (by rfl)) fun _ after _ => alike_get_bind fun _ => ?_
      exact keeps_pure (lawful.within _ _ held (Stream.within_setContent _ _ _))

/-- An external object is converted alike. -/
theorem alike_convertXObject (name : String) (walk : Walk) :
    Change.Alike keeping.walk (fun _ => True) (convertXObject convert name)
      (convertXObject other name) walk := by
  have asObject {stream : Stream} (painted : keeping.painted stream.entries) :
      keeping.object stream.toObject :=
    ⟨rfl, by rintro _ ⟨⟩; exact painted⟩
  refine alike_get_bind fun held => alike_lift_bind fun xobject read => ?_
  have isPainted := painted_of_xobject lawful held read
  cases xobject with
  | image image =>
      have converted := keeps_convertImage lawful (isPainted.painted _ rfl)
      refine (alike_jobOfWalk converted).bind fun gray after heldGray => ?_
      cases gray with
      | none => exact keeps_pure trivial
      | some gray =>
          have heldObject := asObject (heldGray gray rfl)
          refine (keeps_setResource lawful (by decide) heldObject name _).bind fun _ _ _ => ?_
          exact keeps_count lawful _ _
  | form form =>
      refine (alike_convertForm lawful alike (isPainted.painted _ rfl) walk).bind fun gray _ heldGray => ?_
      refine (keeps_setResource lawful (by decide) (asObject heldGray) name _).bind fun _ _ _ => ?_
      exact keeps_count lawful _ _
  | other stream => exact keeps_pure trivial

/-- A named external object is converted alike. -/
theorem alike_convertNamedXObject (name : String) (walk : Walk) :
    Change.Alike keeping.walk (fun _ => True) (convertNamedXObject convert name)
      (convertNamedXObject other name) walk := by
  refine alike_get_bind fun _ => ?_
  split
  · exact keeps_pure trivial
  · refine Alike.bind (keeps_modifyWalk (by rfl)) fun _ after _ => ?_
    refine (keeps_count lawful _ after).bind fun _ after _ => ?_
    exact alike_convertXObject lawful alike name after

/-- The external objects of operands are converted alike. -/
theorem alike_convertXObjects (operands : List Object) (walk : Walk) :
    Change.Alike keeping.walk (fun _ => True) (convertXObjects convert operands)
      (convertXObjects other operands) walk := by
  have named (walk : Walk) : Change.Alike keeping.walk (fun _ => True)
      (operands.forM fun operand => do
        convertNamedXObject convert (← Operands.nameOf "Do" operand))
      (operands.forM fun operand => do
        convertNamedXObject other (← Operands.nameOf "Do" operand)) walk :=
    alike_forM (fun operand after => alike_lift_bind fun name _ =>
      alike_convertNamedXObject lawful alike name after) operands
  unfold convertXObjects
  split
  · exact (keeps_throw _ : Keeps _ (fun _ => True) _ _).bind fun _ after _ => named after
  · exact named walk

/-- A color is converted alike. -/
theorem alike_convertColor (ink : Ink) (walk : Walk) :
    Change.Alike keeping.walk (fun _ => True) (convertColor convert ink)
      (convertColor other ink) walk := by
  unfold convertColor
  split
  · exact alike_lift_bind fun color _ => keeps_pure trivial
  · refine (alike_convertNamedPattern lawful alike _ walk).bind fun _ after _ => ?_
    dsimp only
    split
    · exact keeps_pure trivial
    · exact alike_lift_bind fun color _ => keeps_pure trivial
    · exact keeps_throw _

/-- An operation that the graphics state has followed is converted alike. -/
theorem alike_convertFollowed (operation : Operation) (walk : Walk) :
    Change.Alike keeping.walk (fun _ => True) (convertFollowed convert operation)
      (convertFollowed other operation) walk := by
  have color (slot : Slot) : Change.Alike keeping.walk (fun _ => True)
      (do
        let operands ← convertColor convert ((← get).state.ink slot)
        counted { operation with operands := operands })
      (do
        let operands ← convertColor other ((← get).state.ink slot)
        counted { operation with operands := operands }) walk :=
    alike_get_bind fun _ => (alike_convertColor lawful alike _ walk).bind fun operands after _ =>
      keeps_counted lawful _ after
  unfold convertFollowed
  cases Operator.ofKeyword operation.keyword with
  | saveState | restoreState | setGray | other => exact keeps_pure trivial
  | setSpace slot => exact keeps_convertSpace lawful slot operation walk
  | setColor slot | setPatternColor slot => exact color slot
  | setRgb slot => exact keeps_convertRgb lawful slot operation walk
  | setCmyk slot => exact keeps_convertInks lawful slot operation walk
  | paintShading =>
      exact alike_lift_bind fun name _ =>
        (keeps_convertNamedShading lawful name walk).bind fun _ _ _ => keeps_pure trivial
  | inlineImage =>
      exact alike_lift_bind fun image _ =>
        (alike_onScene (keeps_convertInlineImage lawful image)).bind fun _ _ _ => keeps_pure trivial
  | paintXObject =>
      exact (alike_convertXObjects lawful alike _ walk).bind fun _ _ _ => keeps_pure trivial

/-- An operation is converted alike. -/
theorem alike_convertOperation (operation : Operation) (walk : Walk) :
    Change.Alike keeping.walk (fun _ => True) (convertOperation convert operation)
      (convertOperation other operation) walk := by
  refine alike_get_bind fun _ => alike_lift_bind fun state _ => ?_
  exact Alike.bind (keeps_modifyWalk (by rfl)) fun _ after _ =>
    alike_convertFollowed lawful alike operation after

/-- Content is converted alike. -/
theorem alike_convertOperations (content : Bytes) (walk : Walk) :
    Change.Alike keeping.walk (fun _ => True) (convertOperations convert content)
      (convertOperations other content) walk := by
  refine alike_lift_bind fun operations _ => ?_
  refine (alike_mapM (alike_convertOperation lawful alike) operations).bind fun converted _ _ => ?_
  exact keeps_lift fun _ _ => trivial

end Painting

end Conversion
end Monochrome
