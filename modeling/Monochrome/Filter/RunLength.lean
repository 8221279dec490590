import Monochrome.Bytes

/-!
# Run-length data

A length byte below 128 announces one more literal bytes than it says, one above 128 a byte to
be repeated, and 128 ends the data.
-/

namespace Monochrome
namespace RunLength

/-- The bytes that run-length data stands for; data that breaks off yields what is there. -/
def decode (data : Bytes) : Bytes :=
  match data with
  | [] => []
  | length :: rest =>
    if length = 128 then []
    else if length < 128 then
      rest.take (length.toNat + 1) ++ decode (rest.drop (length.toNat + 1))
    else
      match rest with
      | [] => []
      | byte :: rest => List.replicate (257 - length.toNat) byte ++ decode rest
termination_by data.length
decreasing_by
  all_goals simp only [List.length_drop, List.length_cons]; omega

/-- The number of leading bytes that equal the given one, at most the limit. -/
def runLength (byte : UInt8) (limit : Nat) (bytes : Bytes) : Nat :=
  ((bytes.take limit).takeWhile (· == byte)).length

/-- The number of leading bytes before three equal ones, at most the limit. -/
def literalLength : Nat → Bytes → Nat
  | 0, _ => 0
  | _, [] => 0
  | limit + 1, first :: rest =>
    match rest with
    | second :: third :: _ =>
      if first = second && first = third then 0 else literalLength limit rest + 1
    | _ => literalLength limit rest + 1

/-- Encodes runs of two and more bytes as repetitions and all else as literals. -/
def encodeRuns (bytes : Bytes) : Bytes :=
  match bytes with
  | [] => []
  | byte :: rest =>
    let run := runLength byte 127 rest + 1
    if 2 ≤ run then
      (257 - run).toUInt8 :: byte :: encodeRuns (rest.drop (run - 1))
    else
      let length := max 1 (literalLength 128 (byte :: rest))
      (length - 1).toUInt8 :: byte :: rest.take (length - 1) ++ encodeRuns (rest.drop (length - 1))
termination_by bytes.length
decreasing_by
  all_goals simp only [List.length_drop, List.length_cons]; omega

/-- The run-length data of bytes. -/
def encode (bytes : Bytes) : Bytes :=
  encodeRuns bytes ++ [128]

end RunLength
end Monochrome
