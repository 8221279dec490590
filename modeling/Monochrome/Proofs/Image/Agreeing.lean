import Monochrome.Conversion.Image
import Monochrome.Proofs.ColorSpace.Agreeing

/-!
# Images in documents that agree

The samples of an image, its color space and the encoder of its samples are read of the same parts
of a document.  Documents that agree on what these lead to have the same samples and encoders.
-/

namespace Monochrome

open Document Outcome

variable {kind : Object → Prop} {document other : Document} (leads : document.Leads kind other)
variable {entries : Dictionary} {stream : Stream}
include leads

/-- The encoder of an image is the same where objects lead to the same. -/
theorem ImageEncoder.carries_read {quality : Nat} (holds : Agree.Holds kind entries) :
    Carries (read document entries quality) (read other entries quality) := by
  refine (Filter.carries_chain leads holds).bind fun filters isChain => .mapM ?_
  intro ⟨filter, dictionary⟩ isFilter
  refine Carries.bind (Filter.carries_parametersOf leads ?_) fun _ _ => .refl _
  rintro parameters rfl
  exact Filter.holds_of_chain leads holds isChain isFilter

namespace SampleImage

/-- A dimension of an image is the same where objects lead to the same. -/
theorem carries_dimension {full short : String} (holds : Agree.Holds kind entries) :
    Carries (dimension document entries full short) (dimension other entries full short) :=
  (carries_eitherEntry leads holds).bind fun _ _ => .refl _

/-- The samples of an image are decoded in the same way where objects lead to the same. -/
theorem carries_decodeStream {width height components bits : Nat}
    (holds : Agree.Holds kind stream.entries) :
    Carries (decodeStream document stream width height components bits)
      (decodeStream other stream width height components bits) := by
  refine (Stream.carries_decode leads holds).bind fun decoded _ => ?_
  refine Carries.bind ?_ fun _ _ => .refl _
  refine (carries_eitherEntry leads holds).bind fun value found => .mapOption ?_
  rintro object rfl
  exact carries_numbers leads (kind_of_eitherEntry leads holds found)

end SampleImage

/-- What is to be done with an image is the same where objects lead to the same. -/
theorem Conversion.carries_imageTask {options : Options} {space : ColorSpace Float32 Float}
    {leaveRuns : Bool} (holds : Agree.Holds kind entries) :
    Carries (imageTask options document entries space leaveRuns)
      (imageTask options other entries space leaveRuns) := by
  unfold imageTask
  split
  · exact .refl _
  · split
    · exact .refl _
    · exact (ImageEncoder.carries_read leads holds).bind fun _ _ => .refl _

/-- The samples of an inline image are the same where objects lead to the same, if its color space is. -/
theorem InlineImage.carries_samples {resources others : Resources}
    (holds : Agree.Holds kind stream.entries)
    (spaces : Carries (colorSpace ⟨document, resources⟩ stream)
      (colorSpace ⟨other, others⟩ stream)) :
    Carries (samples ⟨document, resources⟩ stream) (samples ⟨other, others⟩ stream) := by
  refine spaces.bind fun space _ => ?_
  refine (SampleImage.carries_dimension leads holds).bind fun width _ => ?_
  refine (SampleImage.carries_dimension leads holds).bind fun height _ => ?_
  exact (Carries.refl _).bind fun bits _ => SampleImage.carries_decodeStream leads holds

end Monochrome
