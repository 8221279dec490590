import Monochrome.Filter.Chain
import Monochrome.Resources.Basic

/-!
# Content streams

Forms and the cells of patterns are streams of content.  Where such a stream is stored tells
whether it paints itself, and its dictionary can name the resources of its content.
-/

namespace Monochrome

/-- A stream of content, and the number of the object that it is, if it is one. -/
structure ContentStream where
  location : Option ObjectId
  stream : Stream

namespace ContentStream

/-- The decoded content of a stream. -/
def content (document : Document) (source : ContentStream) : Outcome Bytes :=
  source.stream.content document

/-- The resources of a stream, if it has some of its own. -/
def resources? (document : Document) (source : ContentStream) : Outcome (Option Resources) :=
  Resources.ofOwner? document source.stream.entries

/-- The stream with other content. -/
def setContent (source : ContentStream) (content : Bytes) (compress : Bool) : ContentStream :=
  { source with stream := source.stream.setContent content compress }

/-- The stream with other resources. -/
def setResources (source : ContentStream) (resources : Resources) : ContentStream :=
  let entries := source.stream.entries.set "Resources" resources.toObject
  { source with stream := { source.stream with entries := entries } }

end ContentStream
end Monochrome
