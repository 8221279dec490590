import Monochrome.Conversion.Document
import Monochrome.Proofs.Conversion.Attaching

/-!
# What becomes of the page tree

While pages are converted, nodes of the page tree get resources of their own as objects, and pages
get new content.  Everything else that has a role in the document as it was at first is still the
same, and what a node is now tells what it was.
-/

namespace Monochrome

namespace Layout

/-- What an entry for resources was, and what it is now. -/
inductive EntryFrom (layout : Layout) : Object → Object → Prop
  /-- It is the same. -/
  | same (entry : Object) : EntryFrom layout entry entry
  /-- A dictionary became an object of its own. -/
  | moved (entries : Dictionary) (target : ObjectId) (isRole : layout.role target = .resources)
      (stored : layout.original.find? target = some (.dictionary entries)) :
      EntryFrom layout (.dictionary entries) (.reference target)

/-- What a node was, and what it is now: its resources may be an object of their own, and its
content is the same unless it was converted. -/
structure NodeFrom (layout : Layout) (isConverted : Prop) (before now : Dictionary) : Prop where
  parent : now.get? "Parent" = before.get? "Parent"
  resources : Option.Rel layout.EntryFrom (before.get? "Resources") (now.get? "Resources")
  contents : ¬isConverted → now.get? "Contents" = before.get? "Contents"

/-- What an object of the page tree was, and what it is now. -/
inductive ObjectFrom (layout : Layout) (isConverted : Prop) : Object → Object → Prop
  /-- What is no node stays. -/
  | same (object : Object) (notDictionary : object.isDictionary = false) :
      ObjectFrom layout isConverted object object
  /-- A node may change. -/
  | node (before now : Dictionary) (nodeFrom : layout.NodeFrom isConverted before now) :
      ObjectFrom layout isConverted (.dictionary before) (.dictionary now)

/-- What a layout is that another one became, and the content that its pages got, by the places of
the pages. -/
structure Grows (start layout : Layout) (written : List (ObjectId × Stream)) : Prop where
  roles : ∀ target, start.role target ≠ .loose → layout.role target = start.role target
  same : ∀ target, start.role target ≠ .loose → start.role target ≠ .node →
    layout.original.find? target = start.original.find? target
  nodes : ∀ target, start.role target = .node →
    Option.Rel (layout.ObjectFrom (target ∈ written.map Prod.fst)) (start.original.find? target)
      (layout.original.find? target)
  contents : ∀ location stream, (location, stream) ∈ written → start.role location = .node ∧
    ∃ (node : Dictionary) (target : ObjectId),
      layout.original.find? location = some (.dictionary node) ∧
        node.get? "Contents" = some (.reference target) ∧ layout.role target = .shared ∧
          layout.original.find? target = some stream.toObject

variable {start layout : Layout} {former : FormerSpaces} {document : Document}
variable {written others : List (ObjectId × Stream)} {location : ObjectId}
variable {node changed : Dictionary} {value : Object} {kind : Role} {key : String}

/-- A node is at first what it was. -/
theorem NodeFrom.refl (layout : Layout) (isConverted : Prop) (node : Dictionary) :
    layout.NodeFrom isConverted node node where
  parent := rfl
  resources := by
    cases node.get? "Resources" with
    | none => exact .none
    | some entry => exact .some (.same entry)
  contents _ := rfl

/-- A layout is at first what it was, and no page has new content. -/
theorem Grows.refl (layout : Layout) : layout.Grows layout [] where
  roles _ _ := rfl
  same _ _ _ := rfl
  nodes target _ := by
    cases layout.original.find? target with
    | none => exact .none
    | some object =>
        refine .some ?_
        cases object with
        | dictionary node => exact .node _ _ (.refl layout _ node)
        | _ => exact .same _ rfl
  contents := by simp

/-- An object that is neither a node nor without a role is the same after an object was added. -/
theorem find?_original_attach_of_role {fresh target : ObjectId} (isLoose : layout.role fresh = .loose)
    (isNode : layout.role location = .node) (hasRole : layout.role target ≠ .loose)
    (notNode : layout.role target ≠ .node) :
    (layout.attach fresh location kind changed value).original.find? target =
      layout.original.find? target := by
  rw [find?_original_attach, if_neg, if_neg]
  · rintro rfl
    exact hasRole isLoose
  · rintro rfl
    exact notNode isNode

/-- What became of an entry for resources still did after an object was added. -/
theorem EntryFrom.attach {fresh : ObjectId} {before now : Object}
    (isLoose : layout.role fresh = .loose) (isNode : layout.role location = .node)
    (entryFrom : layout.EntryFrom before now) :
    (layout.attach fresh location kind changed value).EntryFrom before now := by
  cases entryFrom with
  | same => exact .same _
  | moved entries target isRole isStored =>
      refine .moved entries target ?_ ?_
      · exact (role_attach isLoose (by rw [isRole]; decide)).trans isRole
      · rw [find?_original_attach_of_role isLoose isNode (by rw [isRole]; decide)
          (by rw [isRole]; decide)]
        exact isStored

/-- The layout grows when an object is added to which a node refers. -/
theorem Grows.attach {fresh : ObjectId} (grows : start.Grows layout written)
    (isLoose : layout.role fresh = .loose) (isNode : start.role location = .node)
    (stored : layout.original.find? location = some (.dictionary node))
    (more : ∀ target ∈ written.map Prod.fst, target ∈ others.map Prod.fst)
    (nodeFrom : ∀ before, layout.NodeFrom (location ∈ written.map Prod.fst) before node →
      (layout.attach fresh location kind changed value).NodeFrom
        (location ∈ others.map Prod.fst) before changed)
    (contents : ∀ place stream, (place, stream) ∈ others →
      place ≠ location ∧ (place, stream) ∈ written ∨
        place = location ∧ ∃ target : ObjectId,
          changed.get? "Contents" = some (.reference target) ∧
            (target = fresh ∧ kind = .shared ∧ value = stream.toObject ∨
              layout.role target = .shared ∧
                layout.original.find? target = some stream.toObject)) :
    start.Grows (layout.attach fresh location kind changed value) others := by
  have wasNode : layout.role location = .node :=
    (grows.roles location (by rw [isNode]; decide)).trans isNode
  have kept {target : ObjectId} (hasRole : layout.role target ≠ .loose)
      (notNode : layout.role target ≠ .node) :
      (layout.attach fresh location kind changed value).original.find? target =
        layout.original.find? target :=
    find?_original_attach_of_role isLoose wasNode hasRole notNode
  have role {target : ObjectId} (hasRole : layout.role target ≠ .loose) :
      (layout.attach fresh location kind changed value).role target = layout.role target :=
    role_attach isLoose hasRole
  refine ⟨?_, ?_, ?_, ?_⟩
  · intro target hasRole
    rw [role (by rwa [grows.roles target hasRole])]
    exact grows.roles target hasRole
  · intro target hasRole notNode
    have sameRole := grows.roles target hasRole
    rw [kept (by rwa [sameRole]) (by rwa [sameRole])]
    exact grows.same target hasRole notNode
  · intro target isTarget
    have related := grows.nodes target isTarget
    have targetRole := (grows.roles target (by rw [isTarget]; decide)).trans isTarget
    by_cases isLocation : location = target
    · subst isLocation
      rw [find?_original_attach, if_pos rfl]
      rw [stored] at related
      obtain ⟨before, was, related⟩ := exists_of_rel related
      rw [was]
      cases related with
      | same _ notDictionary => cases notDictionary
      | node before _ wasNode => exact .some (.node _ _ (nodeFrom before wasNode))
    · rw [find?_original_attach, if_neg isLocation, if_neg (by
        rintro rfl
        rw [isLoose] at targetRole
        cases targetRole)]
      refine rel_mono related fun before now related => ?_
      cases related with
      | same _ notDictionary => exact .same _ notDictionary
      | node before now wasFrom =>
          exact .node _ _ ⟨wasFrom.parent, rel_mono wasFrom.resources fun _ _ => .attach isLoose wasNode,
            fun notConverted => wasFrom.contents (mt (more target) notConverted)⟩
  · intro place stream isWritten
    obtain ⟨notLocation, wasWritten⟩ | ⟨rfl, target, isEntry, atTarget⟩ :=
      contents place stream isWritten
    · obtain ⟨isPlace, was, target, isStored, isEntry, isShared, atTarget⟩ :=
        grows.contents place stream wasWritten
      refine ⟨isPlace, was, target, ?_, isEntry, (role (by rw [isShared]; decide)).trans isShared,
        ?_⟩
      · rw [find?_original_attach, if_neg (Ne.symm notLocation), if_neg]
        · exact isStored
        · rintro rfl
          rw [grows.roles _ (by rw [isPlace]; decide), isPlace] at isLoose
          cases isLoose
      · rw [kept (by rw [isShared]; decide) (by rw [isShared]; decide)]
        exact atTarget
    · refine ⟨isNode, changed, target, ?_, isEntry, ?_⟩
      · rw [find?_original_attach, if_pos rfl]
      · rcases atTarget with ⟨rfl, rfl, rfl⟩ | ⟨isShared, atTarget⟩
        · refine ⟨role_attach_self _, ?_⟩
          rw [find?_original_attach, if_neg, if_pos rfl]
          rintro rfl
          rw [wasNode] at isLoose
          cases isLoose
        · refine ⟨(role (by rw [isShared]; decide)).trans isShared, ?_⟩
          rw [kept (by rw [isShared]; decide) (by rw [isShared]; decide)]
          exact atTarget

end Layout
end Monochrome
