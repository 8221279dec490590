import Monochrome.Bytes

/-!
# Predictors

Before compression each byte may have been replaced by its difference from a prediction, which
is made from the bytes to the left, above, and above to the left.  Undoing it adds the
prediction back, row by row; what lies outside of the image counts as zero.
-/

namespace Monochrome
namespace Predictor

/-- The neighbour nearest to left plus above minus corner; ties go to the left, then to the
one above. -/
def paeth (left above corner : UInt8) : UInt8 :=
  let estimate : Int := (left.toNat : Int) + above.toNat - corner.toNat
  let toLeft := (estimate - left.toNat).natAbs
  let toAbove := (estimate - above.toNat).natAbs
  let toCorner := (estimate - corner.toNat).natAbs
  if toLeft ≤ toAbove && toLeft ≤ toCorner then left
  else if toAbove ≤ toCorner then above
  else corner

/-- The prediction of a row type from the neighbours of a byte. -/
def predict (type left above corner : UInt8) : UInt8 :=
  if type = 1 then left
  else if type = 2 then above
  else if type = 3 then ((left.toNat + above.toNat) / 2).toUInt8
  else if type = 4 then paeth left above corner
  else 0

/-- Adds back the predictions of a row.  The window holds the last bytes of the result, the one
exactly to the left first. -/
def undoRow (type : UInt8) (window above corner : Bytes) : Bytes → Bytes
  | [] => []
  | byte :: rest =>
    let value := byte + predict type (window.headD 0) (above.headD 0) (corner.headD 0)
    value :: undoRow type (window.tail ++ [value]) above.tail corner.tail rest

/-- Adds back the predictions of rows that each start with their type. -/
def undoRows (pixelBytes : Nat) (above : Bytes) : List Bytes → Bytes
  | [] => []
  | [] :: rows => undoRows pixelBytes above rows
  | (type :: data) :: rows =>
    let zeros := List.replicate pixelBytes 0
    let row := undoRow type zeros above (zeros ++ above) data
    row ++ undoRows pixelBytes row rows

/-- Adds back the predictions of an image in which each row chooses its own. -/
def undo (rowBytes pixelBytes : Nat) (data : Bytes) : Bytes :=
  undoRows pixelBytes [] (Bytes.chunks (rowBytes + 1) data)

/-- Adds back the differences of samples from those to their left. -/
def undoDifferences (rowBytes pixelBytes : Nat) (data : Bytes) : Bytes :=
  (Bytes.chunks (max rowBytes 1) data).flatMap
    (undoRow 1 (List.replicate pixelBytes 0) [] [])

end Predictor
end Monochrome
