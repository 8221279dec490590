import Monochrome.Object.Basic

/-!
# Documents

A document is a store of numbered objects with a trailer.  New objects get the next free
number, and no object is ever removed.
-/

namespace Monochrome

/-- A store of numbered objects. -/
structure Document where
  objects : Table ObjectId Object
  trailer : Dictionary
  /-- The highest number in use. -/
  highest : Nat
deriving Inhabited

namespace Document

/-- The document with the given objects and trailer. -/
def ofObjects (objects : List (ObjectId × Object)) (trailer : Dictionary) : Document where
  objects := Table.ofList objects
  trailer := trailer
  highest := objects.foldl (fun highest (target, _) => max highest target.number) 0

/-- The object with the given number. -/
def find? (document : Document) (target : ObjectId) : Option Object :=
  document.objects.find? target

/-- The document with an object in the place of the given number. -/
def store (document : Document) (target : ObjectId) (value : Object) : Document :=
  { document with objects := document.objects.insert target value }

/-- Gives an object the next free number. -/
def add (value : Object) : StateM Document ObjectId :=
  modifyGet fun document =>
    let target := ⟨document.highest + 1, 0⟩
    (target, { document.store target value with highest := document.highest + 1 })

/-- The number of objects that the document is made of, those inside others included. -/
def size (document : Document) : Nat :=
  Object.sizeOfItems (document.objects.entries.map Prod.snd)

end Document
end Monochrome
