import Monochrome.Conversion.Stream
import Monochrome.Pages
import Monochrome.Resources.Page

/-!
# Converting documents

The pages of a document are converted in order.  A page gets one new content stream, and its
resources an object of their own, so that pages that share them see what became of them.
-/

namespace Monochrome
namespace Conversion

/-- Gives a page one content stream in the place of its own. -/
def setPageContent (page : ObjectId) (content : Bytes) (compress : Bool) :
    Change Document Unit := do
  let stream := (Stream.ofData Table.empty []).setContent content compress
  let target ← Change.always id (fun document _ => document) (Document.add stream.toObject)
  let (location, entries) ← (← get).fetchStoredDictionary page
  let entries := entries.set "Contents" (.reference target)
  modify fun document => document.store location (.dictionary entries)

/-- Converts a page. -/
def convertPage (page : ObjectId) : Change Job Unit := do
  let content ← (← get).document.pageContent page
  let resources ← Job.onDocument (Resources.takeFromPage page)
  let (content, _) ← Job.withResources resources (contentToGray content)
  let compress := (← get).converter.options.compressStreams
  Job.onDocument (setPageContent page content compress)

/-- Converts the given pages, in order, up to the first that fails. -/
def convertPages (pages : List ObjectId) : Change Job Statistics := do
  pages.forM convertPage
  return (← get).converter.statistics

/-- Converts pages of a document with a converter of their own. -/
def convertFresh (options : Options) (pages : List ObjectId) : Change Document Statistics :=
  fun document =>
    match convertPages pages ⟨document, { options := options }⟩ with
    | .ok statistics job => .ok statistics job.document
    | .error fault job => .error fault job.document

/-- Converts a page of a document. -/
def convertDocumentPage (options : Options) (page : ObjectId) : Change Document Statistics :=
  convertFresh options [page]

/-- Converts a document. -/
def convertDocument (options : Options) : Change Document Statistics := do
  convertFresh options (← get).pages

end Conversion
end Monochrome
