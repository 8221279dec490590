import Monochrome.Proofs.Conversion.Preserving

/-!
# Objects added to a document that is as it was

A page gets its new content, and sometimes its resources, as an object that is added to the document
and to which a node of the page tree refers.  The new object gets a role and the node its new entry,
in the document and in the document as it was; then the one still is what the other was.
-/

namespace Monochrome

namespace Document

/-- The number that the next object gets that is added. -/
def fresh (document : Document) : ObjectId :=
  ⟨document.highest + 1, 0⟩

/-- The document with an object added, and with a node that refers to it under a key. -/
def attach (document : Document) (location : ObjectId) (node : Dictionary) (key : String)
    (value : Object) : Document :=
  (add value document).2.store location (.dictionary (node.set key (.reference document.fresh)))

/-- Where a document differs after an object was added to which a node refers. -/
theorem find?_attach {document : Document} {location target : ObjectId} {node : Dictionary}
    {key : String} {value : Object} :
    (document.attach location node key value).find? target =
      if location = target then some (.dictionary (node.set key (.reference document.fresh)))
      else if document.fresh = target then some value else document.find? target :=
  (find?_store _ _ _ _).trans (congrArg _ (find?_store document document.fresh target value))

end Document

namespace Layout

variable {layout : Layout} {former : FormerSpaces} {document : Document}
variable {location : ObjectId} {node : Dictionary} {key : String} {value : Object} {kind : Role}

/-- The layout with an object of a role added, and with another node. -/
def attach (layout : Layout) (fresh location : ObjectId) (kind : Role) (node : Dictionary)
    (value : Object) : Layout where
  role target := if target = fresh then kind else layout.role target
  original := (layout.original.store fresh value).store location (.dictionary node)

/-- Whether a document is as it was, in a layout whose document fits its roles, and has its pattern
spaces only under names. -/
structure Stands (layout : Layout) (former : FormerSpaces) (document : Document) : Prop where
  keeps : layout.Keeps former document
  fits : layout.original.Fits layout.role
  named : layout.OnlyNamed

/-- What an object was stays what it was, if its role does, and if the color spaces that it holds
are read as before. -/
theorem Follows.transfer {other : Layout} {target : ObjectId} {before now : Object}
    (sameRole : other.role target = layout.role target)
    (told : ∀ object space, object.fits layout.role .space = true → object.isReference = false →
      ColorSpace.read layout.original object = .ok space →
        ColorSpace.read other.original object = .ok space)
    (fits : before.fits layout.role (layout.role target) = true)
    (follows : layout.Follows former target before now) :
    other.Follows former target before now := by
  have space {place : Option EntryLocation} {before now : Object}
      (fits : before.fits layout.role .space = true)
      (settled : Settled layout.original former place before now) :
      Settled other.original former place before now := by
    cases settled with
    | kept notFormer => exact .kept notFormer
    | gray location underlying isPlace isFormer isValue read =>
        exact .gray location underlying isPlace isFormer isValue (told _ _ fits isValue read)
  have category {places : String → Option EntryLocation} {before now : Object}
      (fits : before.fits layout.role .spaces = true)
      (settled : SettledCategory layout.original former places before now) :
      SettledCategory other.original former places before now := by
    cases settled with
    | same _ notDictionary => exact .same _ notDictionary
    | dictionary was now entries =>
        refine .dictionary was now fun name => rel_mono_of_mem (entries name) ?_
        exact fun value isEntry _ => space ((Object.fits_dictionary_iff.1 fits).find isEntry)
  unfold Follows at follows ⊢
  rw [sameRole]
  cases isRole : layout.role target <;> rw [isRole] at fits follows
  case space => exact space fits follows
  case spaces => exact category fits follows
  case resources =>
    cases follows with
    | same _ notDictionary => exact .same _ notDictionary
    | dictionary was now spaces =>
        refine .dictionary was now (rel_mono_of_mem spaces ?_)
        refine fun value isEntry _ => category ?_
        have entryFits := (Object.fits_dictionary_iff.1 fits).find isEntry
        rwa [show Role.resources.below (Bytes.ascii "ColorSpace") = .spaces from
          Role.below_key .colorSpace] at entryFits
  all_goals exact follows

/-- The new object has the role that it was added for. -/
theorem role_attach_self (fresh : ObjectId) :
    (layout.attach fresh location kind node value).role fresh = kind :=
  if_pos rfl

/-- An object has its role as before, unless it is the new one. -/
theorem role_attach_of_ne {fresh target : ObjectId} (isOther : target ≠ fresh) :
    (layout.attach fresh location kind node value).role target = layout.role target :=
  if_neg isOther

/-- An object that had a role has it as before. -/
theorem role_attach {fresh target : ObjectId} (isLoose : layout.role fresh = .loose)
    (hasRole : layout.role target ≠ .loose) :
    (layout.attach fresh location kind node value).role target = layout.role target :=
  role_attach_of_ne (by rintro rfl; exact hasRole isLoose)

/-- Where the document of a layout differs after an object was added. -/
theorem find?_original_attach {fresh target : ObjectId} :
    (layout.attach fresh location kind node value).original.find? target =
      if location = target then some (.dictionary node)
      else if fresh = target then some value else layout.original.find? target :=
  (Document.find?_store _ _ _ _).trans (congrArg _ (Document.find?_store layout.original _ target _))

/-- A new object and the changed node fit their roles, and so does everything else as before. -/
theorem fits_attach {fresh : ObjectId} (isLoose : layout.role fresh = .loose)
    (isNode : layout.role location = .node) (isKey : Role.node.below (Bytes.ascii key) = kind)
    (valueFits : value.fits layout.role kind = true) (fits : document.Fits layout.role)
    (stored : document.find? location = some (.dictionary node)) :
    ((document.store fresh value).store location
      (.dictionary (node.set key (.reference fresh)))).Fits
        (layout.attach fresh location kind (node.set key (.reference fresh)) value).role := by
  have mono {object : Object} {other : Role} (fits : object.fits layout.role other = true) :
      object.fits (layout.attach fresh location kind (node.set key (.reference fresh)) value).role
        other = true :=
    Object.fits_mono (fun _ => role_attach isLoose) _ _ fits
  intro target object found
  rw [Document.find?_store, Document.find?_store] at found
  split_ifs at found with isLocation isFresh
  · obtain rfl := Option.some.inj found
    subst isLocation
    have nodeFits := mono (fits _ _ stored)
    rw [isNode] at nodeFits
    rw [role_attach isLoose (by simp [isNode]), isNode]
    rw [Object.fits_dictionary_iff] at nodeFits ⊢
    refine nodeFits.insert ?_
    rw [isKey, Object.fits_reference, role_attach_self]
    exact Role.allows_self kind
  · obtain rfl := Option.some.inj found
    subst isFresh
    rw [role_attach_self]
    exact mono valueFits
  · rw [role_attach_of_ne (Ne.symm isFresh)]
    exact mono (fits _ _ found)

section Stands

variable {entries : Dictionary}
variable (stands : layout.Stands former document)
include stands

/-- An object of a role in which objects stay what they were is the same in both documents. -/
theorem Stands.find?_same {target : ObjectId} (isKept : (layout.role target).isKept = true)
    (isSame : ∀ before now, layout.Follows former target before now → before = now) :
    layout.original.find? target = document.find? target := by
  have follows := stands.keeps.follows target isKept
  cases now : document.find? target with
  | none =>
      rw [now] at follows
      exact eq_none_of_rel follows
  | some object =>
      rw [now] at follows
      obtain ⟨before, was, follows⟩ := exists_of_rel follows
      exact was.trans (congrArg some (isSame before object follows))

/-- A node of the page tree is the same in both documents. -/
theorem Stands.find?_node {target : ObjectId} (isNode : layout.role target = .node) :
    layout.original.find? target = document.find? target := by
  refine stands.find?_same (by rw [isNode]; rfl) fun before now follows => ?_
  unfold Follows at follows
  rwa [isNode] at follows

/-- A part of content is the same in both documents. -/
theorem Stands.find?_shared {target : ObjectId} (isShared : layout.role target = .shared) :
    layout.original.find? target = document.find? target := by
  refine stands.find?_same (by rw [isShared]; rfl) fun before now follows => ?_
  unfold Follows at follows
  rwa [isShared] at follows

/-- A document stands as it was after an object was added to which a node refers. -/
theorem Stands.attach (isNode : layout.role location = .node)
    (stored : document.find? location = some (.dictionary node))
    (isKey : Role.node.below (Bytes.ascii key) = kind) (isAdded : kind = .resources ∨ kind = .shared)
    (valueFits : value.fits layout.role kind = true) (isHolder : value.entries? = some entries) :
    (layout.attach document.fresh location kind (node.set key (.reference document.fresh))
      value).Stands former (document.attach location node key value) := by
  have isLoose : layout.role document.fresh = .loose := stands.keeps.isLoose_of_highest
  have wasStored := (stands.find?_node isNode).trans stored
  have isValue : value.isReference = false := by
    cases value <;> first | rfl | cases isHolder
  set changed := layout.attach document.fresh location kind
    (node.set key (.reference document.fresh)) value
  have isFresh : changed.role document.fresh = kind := role_attach_self _
  have isOther {target : ObjectId} (isOther : target ≠ document.fresh) :
      changed.role target = layout.role target := role_attach_of_ne isOther
  have same {target : ObjectId} (hasRole : layout.role target ≠ .loose) :
      changed.role target = layout.role target := role_attach isLoose hasRole
  have wasFound {target : ObjectId} (notLocation : location ≠ target)
      (notFresh : document.fresh ≠ target) :
      changed.original.find? target = layout.original.find? target := by
    rw [find?_original_attach, if_neg notLocation, if_neg notFresh]
  have wasShared {target : ObjectId} (isShared : layout.role target = .shared) :
      layout.original.find? target = changed.original.find? target := by
    refine (wasFound ?_ ?_).symm
    · rintro rfl
      rw [isNode] at isShared
      cases isShared
    · rintro rfl
      rw [isLoose] at isShared
      cases isShared
  have agree : layout.original.Agree layout.IsShared changed.original :=
    stands.fits.agree fun _ => wasShared
  have unknown (place : EntryLocation) (isOwner : place.owner = document.fresh) :
      former.find? place = none := by
    cases known : former.find? place with
    | none => rfl
    | some space =>
        have placeFits := stands.keeps.remembered place space known
        cases place <;> obtain rfl := isOwner <;> simp [EntryLocation.Fits, isLoose] at placeFits
  refine ⟨⟨?_, ?_, ?_, ?_⟩, ?_, ?_⟩
  · intro target object found
    exact fits_attach isLoose isNode isKey valueFits stands.keeps.fits stored target object found
  · intro target hasRole
    show target.number ≤ document.highest + 1
    by_cases isAdded : target = document.fresh
    · subst isAdded
      exact Nat.le_refl _
    · rw [isOther isAdded] at hasRole
      exact Nat.le_succ_of_le (stands.keeps.known target hasRole)
  · intro target isKept
    rw [Document.find?_attach]
    by_cases isLocation : location = target
    · subst isLocation
      rw [find?_original_attach, if_pos rfl, if_pos rfl]
      refine .some ?_
      unfold Follows
      rw [same (by simp [isNode]), isNode]
    by_cases isNew : document.fresh = target
    · subst isNew
      rw [find?_original_attach, if_neg isLocation, if_neg isLocation, if_pos rfl, if_pos rfl]
      refine .some ?_
      unfold Follows
      rw [isFresh]
      rcases isAdded with rfl | rfl
      · refine SettledResources.refl ?_ value
        rintro name _ ⟨⟩
        exact unknown _ rfl
      · rfl
    rw [isOther (Ne.symm isNew)] at isKept
    rw [wasFound isLocation isNew, if_neg isLocation, if_neg isNew]
    refine rel_mono_of_mem (stands.keeps.follows target isKept) fun before was _ follows => ?_
    refine follows.transfer (isOther (Ne.symm isNew)) ?_ (stands.fits target before was)
    intro object space fits isValue read
    exact ColorSpace.carries_read agree.leads (Object.fits_shared_of_space fits isValue) _ read
  · intro place space known
    have placeFits := stands.keeps.remembered place space known
    cases place with
    | object target =>
        have isRole : layout.role target = .space := placeFits
        exact (same (by simp [isRole])).trans isRole
    | named owner name =>
        exact placeFits.imp (fun isRole => (same (by simp [isRole])).trans isRole)
          fun isRole => (same (by simp [isRole])).trans isRole
  · exact fits_attach isLoose isNode isKey valueFits stands.fits wasStored
  · intro target object underlying isShared found read
    by_cases isNew : target = document.fresh
    · subst isNew
      have notLocation : location ≠ document.fresh := by
        rintro rfl
        rw [isNode] at isLoose
        cases isLoose
      rw [find?_original_attach, if_neg notLocation, if_pos rfl] at found
      obtain rfl := Option.some.inj found
      obtain ⟨items, rfl⟩ := ColorSpace.eq_array_of_read isValue read
      cases isHolder
    · rw [isOther isNew] at isShared
      rw [← wasShared isShared] at found
      have fits := stands.fits target object found
      rw [isShared] at fits
      exact stands.named target object underlying isShared found
        (ColorSpace.carries_read agree.symm.leads fits _ read)

end Stands

end Layout
end Monochrome
