import Monochrome.Change
import Monochrome.Object.Document

/-!
# Resources

Content names what it paints with: color spaces, patterns, shadings and other objects stand in
categories of a resource dictionary.  The dictionary, a category and an entry can each be stored
in an object of their own; replacing an entry changes it where it is stored, for everything that
shares it.
-/

namespace Monochrome

/-- A resource dictionary: stored in a document, or owned by whoever reads it. -/
inductive Resources
  | indirect (target : ObjectId)
  | direct (entries : Dictionary)

/-- Where a resource is stored. -/
inductive EntryLocation
  /-- An object of its own. -/
  | object (target : ObjectId)
  /-- Under a name in a dictionary that is stored in an object. -/
  | named (owner : ObjectId) (name : String)
deriving DecidableEq, Repr

namespace Resources

instance : Inhabited Resources :=
  ⟨.direct Table.empty⟩

/-- The resources that an entry of a dictionary stands for. -/
def ofEntry (document : Document) (entry : Object) : Outcome Resources := do
  match ← document.resolveWithId entry with
  | (some target, .dictionary _) => return .indirect target
  | (none, .dictionary entries) => return .direct entries
  | _ => throw (.mismatch .resourceDictionary)

/-- The resources in a dictionary, if it has any. -/
def ofOwner? (document : Document) (owner : Dictionary) : Outcome (Option Resources) :=
  (owner.get? "Resources").mapM (ofEntry document)

/-- The object to be stored where the resources come from. -/
def toObject : Resources → Object
  | indirect target => .reference target
  | direct entries => .dictionary entries

end Resources

/-- A document with the resources of the content that is read. -/
structure Scope where
  document : Document
  resources : Resources

namespace Scope

/-- The value of a resource, and the number of the object in which it is stored alone. -/
structure Entry where
  location : Option ObjectId
  value : Object

/-- The resource dictionary. -/
def dictionary (scope : Scope) : Outcome Dictionary :=
  match scope.resources with
  | .indirect target => scope.document.fetchDictionary target
  | .direct entries => .ok entries

/-- The dictionary of a category, if there is one. -/
def category? (scope : Scope) (kind : ResourceKind) : Outcome (Option Dictionary) := do
  match (← scope.dictionary).get? kind.key with
  | none => return none
  | some entry =>
    match ← scope.document.resolve entry with
    | .dictionary entries => return some entries
    | _ => throw (.mismatch .resourceCategory)

/-- The resource with a name, if there is one. -/
def lookup? (scope : Scope) (kind : ResourceKind) (name : String) : Outcome (Option Entry) := do
  match (← scope.category? kind).bind (·.find? (Text.toBytes name)) with
  | none => return none
  | some entry =>
    let (location, value) ← scope.document.resolveWithId entry
    return some ⟨location, value⟩

/-- The resource with a name. -/
def lookup (scope : Scope) (kind : ResourceKind) (name : String) : Outcome Entry := do
  match ← scope.lookup? kind name with
  | some entry => return entry
  | none => throw (.undefined (.resource kind) name)

/-- The number of the object in which a category is stored alone. -/
def categoryLocation? (scope : Scope) (kind : ResourceKind) : Outcome (Option ObjectId) := do
  match (← scope.dictionary).get? kind.key with
  | some (.reference target) => return (← scope.document.resolveWithId (.reference target)).1
  | _ => return none

/-- Where the resource with a name is stored; nowhere if whoever reads it owns its dictionary. -/
def location? (scope : Scope) (kind : ResourceKind) (name : String) :
    Outcome (Option EntryLocation) := do
  match (← scope.lookup? kind name).bind Entry.location with
  | some target => return some (.object target)
  | none =>
    match ← scope.categoryLocation? kind, scope.resources with
    | some owner, _ => return some (.named owner name)
    | none, .indirect owner => return some (.named owner name)
    | none, .direct _ => return none

/-- A resource dictionary with a value under a name of a category. -/
def enter (entries : Dictionary) (kind : ResourceKind) (name : String) (value : Object) :
    Dictionary :=
  let category := match entries.get? kind.key with
    | some (.dictionary category) => category
    | _ => Table.empty
  entries.set kind.key (.dictionary (category.insert (Text.toBytes name) value))

/-- The scope with a value in a category that is stored in an object. -/
def replaceInObject (scope : Scope) (owner : ObjectId) (name : String) (value : Object) :
    Outcome Scope := do
  let (location, category) ← scope.document.fetchStoredDictionary owner
  let category := category.insert (Text.toBytes name) value
  return { scope with document := scope.document.store location (.dictionary category) }

/-- The scope with a value in a category that is part of the resource dictionary. -/
def replaceInDictionary (scope : Scope) (kind : ResourceKind) (name : String) (value : Object) :
    Outcome Scope := do
  match scope.resources with
  | .indirect target =>
    let (location, entries) ← scope.document.fetchStoredDictionary target
    let changed := Object.dictionary (enter entries kind name value)
    return { scope with document := scope.document.store location changed }
  | .direct entries => return { scope with resources := .direct (enter entries kind name value) }

/-- The scope with a value in the place of the resource with a name. -/
def replace (scope : Scope) (kind : ResourceKind) (name : String) (value : Object) :
    Outcome Scope := do
  match (← scope.lookup? kind name).bind Entry.location with
  | some target => return { scope with document := scope.document.store target value }
  | none =>
    match ← scope.categoryLocation? kind with
    | some owner => scope.replaceInObject owner name value
    | none => scope.replaceInDictionary kind name value

/-- Puts a value in the place of the resource with a name. -/
def set (kind : ResourceKind) (name : String) (value : Object) : Change Scope Unit := do
  EStateM.set (← (← get).replace kind name value)

/-- A change of the document. -/
def onDocument (step : StateM Document α) : Change Scope α :=
  Change.always document (fun document scope => { scope with document := document }) step

end Scope
end Monochrome
