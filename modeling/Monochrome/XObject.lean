import Monochrome.ContentStream

/-!
# External objects

What content paints by name: images, forms, which are content again, and anything else, which is
left alone.
-/

namespace Monochrome

/-- An object that content paints by name. -/
inductive XObject
  | image (stream : Stream)
  | form (source : ContentStream)
  | other (stream : Stream)

namespace XObject

/-- Reads an object that is stored under the given number, if under any. -/
def read (document : Document) (location : Option ObjectId) (object : Object) :
    Outcome XObject := do
  match object with
  | .stream entries data =>
    match (← document.entry? entries "Subtype").bind Object.text? with
    | some "Image" => return image ⟨entries, data⟩
    | some "Form" => return form ⟨location, ⟨entries, data⟩⟩
    | _ => return other ⟨entries, data⟩
  | _ => throw (.mismatch .xobject)

/-- The object again. -/
def toObject : XObject → Object
  | image stream => stream.toObject
  | form source => source.stream.toObject
  | other stream => stream.toObject

end XObject
end Monochrome
