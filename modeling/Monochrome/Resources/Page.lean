import Monochrome.Resources.Basic

/-!
# Resources of pages

A page without resources of its own has those of its closest ancestor in the page tree.  A
resource dictionary that is part of a page or an ancestor can be moved to an object of its own,
so that changes reach every page that shares it.
-/

namespace Monochrome
namespace Resources

/-- The number of nodes at which resources are looked for. -/
def maxTreeDepth : Nat := 64

/-- The first of the given number of nodes, from one up to the root, that has resources, and
its entry for them. -/
def findOwner (document : Document) : Nat → ObjectId → Outcome (Option (ObjectId × Object))
  | 0, _ => .ok none
  | depth + 1, target => do
    let node ← document.fetchDictionary target
    match node.get? "Resources", node.get? "Parent" with
    | some entry, _ => return some (target, entry)
    | none, some (.reference parent) => findOwner document depth parent
    | none, _ => return none

/-- The resources of a page; a dictionary that is part of a node is copied. -/
def ofPage (document : Document) (page : ObjectId) : Outcome Resources := do
  match ← findOwner document maxTreeDepth page with
  | some (_, entry) => ofEntry document entry
  | none => return default

/-- The resources of a page; a dictionary that is part of a node is moved to an object of its
own. -/
def takeFromPage (page : ObjectId) : Change Document Resources := do
  match ← findOwner (← get) maxTreeDepth page with
  | some (owner, .dictionary entries) =>
    let moved ← Change.always id (fun document _ => document) (Document.add (.dictionary entries))
    let (location, node) ← (← get).fetchStoredDictionary owner
    let node := node.set "Resources" (.reference moved)
    modify fun document => document.store location (.dictionary node)
    return .indirect moved
  | some (_, entry) => ofEntry (← get) entry
  | none => return default

end Resources
end Monochrome
