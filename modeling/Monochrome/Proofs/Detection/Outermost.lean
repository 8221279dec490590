import Monochrome.Proofs.Detection.Left

/-!
# Converted content is searched

The content that a conversion writes is searched by a detector with the same options, in the
document and under the resources that the conversion leaves.  What it says is what is judged of the
things that the content paints with, and these are not colored if each is as a conversion leaves
it.  A shading that is stored in the object of its own pattern is not left so: the pattern, as it
was before its shading became gray, is written over it.
-/

namespace Monochrome

/-- A new detector with the options of a converter. -/
def Converter.newDetector (converter : Converter) : Detector where
  options := converter.options

namespace Detection
open Change Conversion

variable {scene after : Scene} {content bytes : Bytes}

/-- Content is searched to the depth to which the detector may nest streams. -/
theorem outcome_containsColor (content : Bytes) (scope : Scope) (detector : Detector) :
    (containsColor content scope).outcome detector =
      (detectStream (detector.options.maxNestingDepth + 2) none content scope).outcome detector := by
  rw [containsColor, outcome_get_bind, Trail.levels]

/-- Content whose operations are those of a conversion and name things as conversions leave them is
as a conversion leaves it. -/
theorem leftContent_of_read {options : Options} {depth : Nat} {scope : Scope}
    {operations : List Operation} {moved : GraphicsState}
    (read : Content.read content = .ok operations) (run : GrayRun default operations moved)
    (left : ∀ operation ∈ operations,
      LeftOperation (LeftContent options depth) options scope operation) :
    LeftContent options (depth + 1) content scope := by
  intro others again
  rw [read] at again
  obtain rfl := Except.ok.inj again
  exact ⟨⟨moved, run⟩, left⟩

end Detection
end Monochrome
