/-!
# Blank characters

The characters with the Unicode property White_Space.  They separate the tokens of a
calculator program.
-/

namespace Monochrome
namespace Text

/-- The inclusive ranges of the property, in ascending order. -/
def blankRanges : List (Nat × Nat) :=
  [(0x9, 0xD), (0x20, 0x20), (0x85, 0x85), (0xA0, 0xA0), (0x1680, 0x1680), (0x2000, 0x200A),
    (0x2028, 0x2029), (0x202F, 0x202F), (0x205F, 0x205F), (0x3000, 0x3000)]

/-- Whether a character has the property. -/
def isBlank (character : Char) : Bool :=
  blankRanges.any fun (low, high) => low ≤ character.toNat && character.toNat ≤ high

end Text
end Monochrome
