import Monochrome.Detection.Stream
import Monochrome.Pages
import Monochrome.Resources.Page

/-!
# Detecting colored pages

Each page is searched by a detector of its own.
-/

namespace Monochrome
namespace Detection

/-- Whether a page is colored. -/
def pageColored (options : Options) (document : Document) (page : ObjectId) : Outcome Bool := do
  let content ← document.pageContent page
  let resources ← Resources.ofPage document page
  ((containsColor content ⟨document, resources⟩).outcome { options := options }).1

/-- The numbers of the colored pages, counted from one. -/
def coloredPages (options : Options) (document : Document) : Outcome (List Nat) := do
  let judged ← document.pages.mapM (pageColored options document)
  return judged.zipIdx.filterMap fun (colored, index) => if colored then some (index + 1) else none

end Detection
end Monochrome
