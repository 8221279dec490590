import Monochrome.Content.InlineImage

/-!
# Content

Reading content cuts it at its inline images, reads the segments between them, and makes each
image one operation.  Writing puts every operation on a line of its own.
-/

namespace Monochrome
namespace Content

/-- The operations of a segment without inline images; blanks alone are no segment. -/
def readSegment (segment : Bytes) : Outcome (List Operation) :=
  if segment.all Bytes.isBlank then .ok []
  else
    match Operation.readAll segment with
    | some operations => .ok operations
    | none => .error (.content .unreadable)

/-- The operation of an inline image. -/
def imageOperation (image : Stream) : Operation :=
  ⟨"BI", [image.toObject]⟩

set_option linter.unusedVariables false in
/-- The operations of content. -/
def read (content : Bytes) : Outcome (List Operation) :=
  match found : Lexeme.findWord (Bytes.ascii "BI") content with
  | none => readSegment content
  | some (before, after) =>
    match readSegment before with
    | .error fault => .error fault
    | .ok operations =>
      match done : InlineImage.read after with
      | .error fault => .error fault
      | .ok (image, rest) => do
        let others ← read rest
        return operations ++ imageOperation image :: others
termination_by content.length
decreasing_by
  have whole := congrArg List.length (Lexeme.append_of_findWord found)
  have shorter := InlineImage.length_read_le done
  simp only [List.length_append, show (Bytes.ascii "BI").length = 2 from rfl] at whole
  omega

/-- An operation as it is written, with the end of its last line. -/
def printOperation (operation : Operation) : Outcome Bytes :=
  if operation.keyword = "BI" then
    return InlineImage.print (← Operands.inlineImage operation.operands)
  else return operation.print ++ [10]

/-- The content of operations. -/
def write (operations : List Operation) : Outcome Bytes :=
  return (← operations.mapM printOperation).flatten

end Content
end Monochrome
