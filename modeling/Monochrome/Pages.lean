import Monochrome.Filter.Chain

/-!
# Pages

The pages are the leaves of a tree, and the content of a page is that of its content streams, one
after the other.
-/

namespace Monochrome
namespace Document

/-- The children of a node of the page tree.  The reference to them counts as the first of
those that may be followed. -/
def kids (document : Document) (node : Dictionary) : List Object :=
  match node.get? "Kids" with
  | some (.array items) => items
  | some (.reference target) =>
    match document.fetchWithin (referenceLimit - 1) target with
    | .ok (_, .array items) => items
    | _ => []
  | _ => []

/-- The depth from which on the children of a node are not looked at. -/
def pageTreeDepth : Nat := 256

/-- The pages among nodes and below them, in order.  The nodes are given with their depths.  At
most the given number of them is looked at. -/
def pagesBelow (document : Document) : Nat → List (Nat × Object) → List ObjectId
  | 0, _ => []
  | _, [] => []
  | limit + 1, (depth, .reference target) :: rest =>
    match document.fetchDictionary target with
    | .ok node =>
      match (node.get? "Type").bind Object.text? with
      | some "Page" => target :: pagesBelow document limit rest
      | some "Pages" =>
        let below := if depth < pageTreeDepth then document.kids node else []
        pagesBelow document limit (below.map (depth + 1, ·) ++ rest)
      | _ => pagesBelow document limit rest
    | .error _ => pagesBelow document limit rest
  | limit + 1, _ :: rest => pagesBelow document limit rest

/-- The pages of a document, in order. -/
def pages (document : Document) : List ObjectId :=
  match root? with
  | some root => document.pagesBelow document.objects.size ((document.kids root).map (0, ·))
  | none => []
where
  /-- The root of the page tree. -/
  root? : Option Dictionary := do
    let .reference catalog ← document.trailer.get? "Root" | none
    let .reference tree ← (← (document.fetchDictionary catalog).toOption).get? "Pages" | none
    (document.fetchDictionary tree).toOption

/-- The streams that an entry for content names, through at most the given number of
references. -/
def contentsOf (document : Document) : Nat → Object → List ObjectId
  | 0, _ => []
  | limit + 1, .reference target =>
    match document.find? target with
    | none => [target]
    | some (.stream _ _) => [target]
    | some other => contentsOf document limit other
  | _, .array items =>
    items.filterMap fun item =>
      match item with
      | .reference target => some target
      | _ => none
  | _, _ => []

/-- The number of references that are followed to the content of a page. -/
def contentsLimit : Nat := 128

/-- The content streams of a page. -/
def pageContents (document : Document) (page : ObjectId) : List ObjectId :=
  match document.fetchDictionary page with
  | .ok entries => ((entries.get? "Contents").map (document.contentsOf contentsLimit)).getD []
  | .error _ => []

/-- Two pieces of content one after the other, on lines of their own. -/
def joinContent (first second : Bytes) : Bytes :=
  if first.isEmpty then second else first ++ 10 :: second

/-- The content of a page. -/
def pageContent (document : Document) (page : ObjectId) : Outcome Bytes :=
  (document.pageContents page).foldlM
    (fun content target => do
      let stream ← (← document.fetch target).asStream
      return joinContent content (← stream.content document))
    []

end Document
end Monochrome
