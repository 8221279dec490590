import Monochrome.Content.Grammar
import Monochrome.Content.Lexeme

/-!
# Inline images in content

An inline image is a dictionary between the words `BI` and `ID`, then data, then the word `EI`.
If the dictionary tells the length of the data, and an `EI` follows it, the data is taken by its
length; otherwise it ends before the first `EI` after a blank.  Writing always tells the length.
-/

namespace Monochrome
namespace InlineImage

/-- The entries of a dictionary whose keys and values alternate. -/
def pairs : List Object → Outcome (List (Bytes × Object))
  | [] => .ok []
  | .name key :: value :: rest => return (key, value) :: (← pairs rest)
  | _ => .error (.content .keyNotAName)

/-- The dictionary of an inline image: the operands of the word that ends it. -/
def readDictionary (bytes : Bytes) : Outcome Dictionary :=
  match Operation.readAll (bytes ++ Bytes.ascii " ID") with
  | none => .error (.content .unreadableDictionary)
  | some [⟨"ID", operands⟩] =>
    if operands.length % 2 = 1 then .error (.content .keyWithoutValue)
    else return Table.ofList (← pairs operands)
  | some _ => .error (.content .malformedDictionary)

/-- The value of a key that may be abbreviated; the full key comes first. -/
def header? (dictionary : Dictionary) (full short : String) : Option Object :=
  (dictionary.get? full).or (dictionary.get? short)

/-- The natural number under a key that may be abbreviated. -/
def natural? (dictionary : Dictionary) (full short : String) : Option Nat :=
  match header? dictionary full short with
  | some (.integer value) => if 0 ≤ value then some value.toInt.toNat else none
  | _ => none

/-- The number of samples of a pixel, where the color space tells it at once. -/
def components? (dictionary : Dictionary) : Option Nat :=
  match header? dictionary "ColorSpace" "CS" with
  | none => some 1
  | some (.name bytes) =>
    if [Bytes.ascii "G", Bytes.ascii "DeviceGray", Bytes.ascii "CalGray"].contains bytes then
      some 1
    else if [Bytes.ascii "RGB", Bytes.ascii "DeviceRGB", Bytes.ascii "CalRGB"].contains bytes then
      some 3
    else if [Bytes.ascii "CMYK", Bytes.ascii "DeviceCMYK"].contains bytes then some 4
    else none
  | some (.array (first :: _)) =>
    if first.text? = some "I" || first.text? = some "Indexed" then some 1 else none
  | some _ => none

/-- The number of samples of a row and the number of bits of each, where the dictionary tells
them at once. -/
def rowSamples? (dictionary : Dictionary) (width : Nat) : Option (Nat × Nat) :=
  if Object.isTrue (header? dictionary "ImageMask" "IM") then some (width, 1)
  else
    (components? dictionary).map fun components =>
      (width * components, (natural? dictionary "BitsPerComponent" "BPC").getD 8)

/-- The length of the data, if it is given, or if the data is not filtered and the size of its
rows is known.  A row has fewer than `2 ^ 64` samples and fewer than `2 ^ 64` bits. -/
def dataLength? (dictionary : Dictionary) : Option Nat :=
  match natural? dictionary "Length" "L" with
  | some length => some length
  | none =>
    if (header? dictionary "Filter" "F").isSome then none
    else do
      let width ← natural? dictionary "Width" "W"
      let height ← natural? dictionary "Height" "H"
      let (samples, bits) ← rowSamples? dictionary width
      if samples < 2 ^ 64 ∧ samples * bits < 2 ^ 64 then
        return (samples * bits + 7) / 8 * height
      else none

/-- What follows an `EI` at the start of bytes that ends a token. -/
def afterEnd? : Bytes → Option Bytes
  | 69 :: 73 :: rest => if Lexeme.endsToken rest then some rest else none
  | _ => none

/-- The data before an `EI` after a blank, and what follows. -/
def scanAfterBlank : Bytes → Option (Bytes × Bytes)
  | [] => none
  | byte :: rest =>
    let found := if Bytes.isBlank byte then afterEnd? rest else none
    match found with
    | some after => some ([], after)
    | none => (scanAfterBlank rest).map fun (data, after) => (byte :: data, after)

/-- The data before the first `EI` at its start or after a blank, and what follows. -/
def scan? (bytes : Bytes) : Option (Bytes × Bytes) :=
  match afterEnd? bytes with
  | some after => some ([], after)
  | none => scanAfterBlank bytes

/-- The data of the given length if an `EI` follows it, and what follows that. -/
def ofLength? (length : Nat) (bytes : Bytes) : Option (Bytes × Bytes) :=
  if length ≤ bytes.length then
    (afterEnd? ((bytes.drop length).dropWhile Bytes.isBlank)).map fun after =>
      (bytes.take length, after)
  else none

/-- The bytes without the single blank that they may start with. -/
def dropBlank : Bytes → Bytes
  | [] => []
  | byte :: rest => if Bytes.isBlank byte then rest else byte :: rest

/-- Reads an inline image after the word `BI`, and gives what follows its `EI`. -/
def read (content : Bytes) : Outcome (Stream × Bytes) :=
  match Lexeme.findWord (Bytes.ascii "ID") content with
  | none => .error (.content .noImageData)
  | some (header, data) =>
    match readDictionary header with
    | .error fault => .error fault
    | .ok dictionary =>
      let data := dropBlank data
      let found := ((dataLength? dictionary).bind (ofLength? · data)).or (scan? data)
      match found with
      | none => .error (.content .noImageEnd)
      | some (data, rest) => .ok (Stream.ofData dictionary data, rest)

/-- An inline image as it is written, from its word `BI` to the end of the line. -/
def print (image : Stream) : Bytes :=
  let kept := image.entries.entries.filter fun (key, _) =>
    key != Bytes.ascii "Length" && key != Bytes.ascii "L"
  let operands := kept.flatMap fun (key, value) => [.name key, value]
  let length := [.named "L", .integer (Int64.ofNat image.data.length)]
  Bytes.ascii "BI " ++ Operation.print ⟨"ID", operands ++ length⟩ ++ 32 :: image.data ++
    Bytes.ascii "\nEI\n"

/-- What follows a blank that may be dropped is not longer. -/
theorem length_dropBlank_le (bytes : Bytes) : (dropBlank bytes).length ≤ bytes.length := by
  fun_cases dropBlank bytes <;> simp

/-- What follows an `EI` is not longer than the bytes that start with it. -/
theorem length_afterEnd?_le {bytes after : Bytes} (found : afterEnd? bytes = some after) :
    after.length ≤ bytes.length := by
  unfold afterEnd? at found
  split at found
  · split at found <;> simp_all
    omega
  · simp at found

/-- What follows an `EI` after a blank is not longer than the bytes searched for it. -/
theorem length_scanAfterBlank_le {bytes data after : Bytes}
    (found : scanAfterBlank bytes = some (data, after)) : after.length ≤ bytes.length := by
  induction bytes generalizing data with
  | nil => simp [scanAfterBlank] at found
  | cons byte rest inductionHypothesis =>
    simp only [scanAfterBlank] at found
    split at found
    · rename_i next atEnd
      simp only [Option.some.injEq, Prod.mk.injEq] at found
      obtain ⟨_, rfl⟩ := found
      split at atEnd
      · have := length_afterEnd?_le atEnd
        simp only [List.length_cons]
        omega
      · simp at atEnd
    · obtain ⟨⟨data', after'⟩, later, same⟩ := Option.map_eq_some_iff.1 found
      simp only [Prod.mk.injEq] at same
      obtain ⟨_, rfl⟩ := same
      have := inductionHypothesis later
      simp only [List.length_cons]
      omega

/-- What follows the data is not longer than the bytes that are scanned. -/
theorem length_scan?_le {bytes data after : Bytes} (found : scan? bytes = some (data, after)) :
    after.length ≤ bytes.length := by
  unfold scan? at found
  split at found
  · rename_i next atEnd
    simp only [Option.some.injEq, Prod.mk.injEq] at found
    obtain ⟨_, rfl⟩ := found
    exact length_afterEnd?_le atEnd
  · exact length_scanAfterBlank_le found

/-- What follows data of a given length is not longer than the bytes that it is taken from. -/
theorem length_ofLength?_le {length : Nat} {bytes data after : Bytes}
    (found : ofLength? length bytes = some (data, after)) : after.length ≤ bytes.length := by
  unfold ofLength? at found
  split at found
  · obtain ⟨after', atEnd, same⟩ := Option.map_eq_some_iff.1 found
    simp only [Prod.mk.injEq] at same
    obtain ⟨_, rfl⟩ := same
    have atMost := length_afterEnd?_le atEnd
    have dropped := (List.dropWhile_sublist Bytes.isBlank (l := bytes.drop length)).length_le
    simp only [List.length_drop] at dropped
    omega
  · simp at found

/-- What follows an inline image is not longer than the content that it is read from. -/
theorem length_read_le {content rest : Bytes} {image : Stream}
    (done : read content = .ok (image, rest)) : rest.length ≤ content.length := by
  unfold read at done
  split at done
  · simp at done
  · rename_i header data found
    have whole := congrArg List.length (Lexeme.append_of_findWord found)
    simp only [List.length_append] at whole
    split at done
    · simp at done
    · rename_i dictionary _
      have dropped := length_dropBlank_le data
      simp only at done
      split at done
      · simp at done
      · rename_i data' rest' either
        simp only [Except.ok.injEq, Prod.mk.injEq] at done
        obtain ⟨_, rfl⟩ := done
        have atMost : rest'.length ≤ (dropBlank data).length := by
          rcases Option.or_eq_some_iff.1 either with exact | ⟨_, scanned⟩
          · obtain ⟨length, _, taken⟩ := Option.bind_eq_some_iff.1 exact
            exact length_ofLength?_le taken
          · exact length_scan?_le scanned
        omega

end InlineImage
end Monochrome
