/-!
# Color operators

The operators of a content stream that set a color, paint with one, or save and restore the
graphics state.  All others are of one kind.
-/

namespace Monochrome

/-- The two colors of a graphics state. -/
inductive Slot
  /-- The color of lines. -/
  | stroke
  /-- The color of areas. -/
  | fill
deriving DecidableEq, Repr

/-- An operator by its effect on color. -/
inductive Operator
  | saveState
  | restoreState
  | setSpace (slot : Slot)
  | setColor (slot : Slot)
  /-- Sets a color that may be a pattern. -/
  | setPatternColor (slot : Slot)
  | setGray (slot : Slot)
  | setRgb (slot : Slot)
  | setCmyk (slot : Slot)
  | paintShading
  | inlineImage
  | paintXObject
  | other
deriving DecidableEq, Repr

namespace Operator

/-- The operator that a keyword names. -/
def ofKeyword (keyword : String) : Operator :=
  match keyword with
  | "q" => saveState
  | "Q" => restoreState
  | "CS" => setSpace .stroke
  | "cs" => setSpace .fill
  | "SC" => setColor .stroke
  | "SCN" => setPatternColor .stroke
  | "sc" => setColor .fill
  | "scn" => setPatternColor .fill
  | "G" => setGray .stroke
  | "g" => setGray .fill
  | "RG" => setRgb .stroke
  | "rg" => setRgb .fill
  | "K" => setCmyk .stroke
  | "k" => setCmyk .fill
  | "sh" => paintShading
  | "BI" => inlineImage
  | "Do" => paintXObject
  | _ => other

/-- The keyword of an operator that has one of its own. -/
def keyword? : Operator → Option String
  | saveState => some "q"
  | restoreState => some "Q"
  | setSpace .stroke => some "CS"
  | setSpace .fill => some "cs"
  | setColor .stroke => some "SC"
  | setPatternColor .stroke => some "SCN"
  | setColor .fill => some "sc"
  | setPatternColor .fill => some "scn"
  | setGray .stroke => some "G"
  | setGray .fill => some "g"
  | setRgb .stroke => some "RG"
  | setRgb .fill => some "rg"
  | setCmyk .stroke => some "K"
  | setCmyk .fill => some "k"
  | paintShading => some "sh"
  | inlineImage => some "BI"
  | paintXObject => some "Do"
  | other => none

/-- The slot that an operator sets, if any. -/
def slot? : Operator → Option Slot
  | setSpace slot | setColor slot | setPatternColor slot => some slot
  | setGray slot | setRgb slot | setCmyk slot => some slot
  | _ => none

/-- Whether an operator sets the color of lines. -/
def isStroking (operator : Operator) : Bool :=
  operator.slot? = some .stroke

end Operator

namespace Slot

/-- The keyword that sets a gray level. -/
def grayKeyword : Slot → String
  | stroke => "G"
  | fill => "g"

end Slot
end Monochrome
