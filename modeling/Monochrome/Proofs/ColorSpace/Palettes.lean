import Monochrome.ColorSpace.Gray
import Monochrome.Proofs.Outcome

/-!
# Palettes in gray

The partner in gray of a palette has the byte of the gray level of each of its entries.  Both select
an entry alike, so every component is seen in gray where it was seen in color before, and nothing
outside of the gray palette is selected.
-/

namespace Monochrome

section Scalars

variable {Single Double : Type} [Scalar Single] [Analysis Single] [Scalar Double]
  [Analysis Double] [Precision Single Double]

/-- The neutral color whose level is the byte of the gray level of a color. -/
def Rgb.grayed (color : Rgb Single) : Rgb Single :=
  .neutral (byteWithin (Scalar.levelByte color.gray) (0.0, 1.0))

namespace ColorSpace

variable {base gray : ColorSpace Single Double} {last : Nat} {palette grays : Bytes}

omit [Analysis Single] [Scalar Double] [Analysis Double] [Precision Single Double] in
/-- An entry of a palette of gray is the level of its byte. -/
theorem paletteEntry_deviceGray {index : Nat} (within : index < grays.length) :
    paletteEntry (.deviceGray : ColorSpace Single Double) grays index =
      .ok [byteWithin grays[index] (0.0, 1.0)] := by
  have bytes : (grays.drop (index * 1)).take 1 = [grays[index]] := by
    rw [Nat.mul_one, List.drop_eq_getElem_cons within]
    rfl
  show (if ((grays.drop (index * 1)).take 1).length = 1 then
    Except.ok (List.zipWith byteWithin ((grays.drop (index * 1)).take 1) [(0.0, 1.0)])
    else _) = _
  rw [bytes]
  rfl

/-- Each entry of a palette that is made gray has a color, and its byte is that of the gray level of
this color. -/
theorem entry_of_grayPalette (converted : grayPalette base last palette = .ok grays) {index : Nat}
    (within : index ≤ last) :
    ∃ values color, paletteEntry base palette index = .ok values ∧
      base.toRgb values = .ok color ∧
      paletteEntry (.deviceGray : ColorSpace Single Double) grays index =
        .ok [byteWithin (Scalar.levelByte color.gray) (0.0, 1.0)] := by
  obtain ⟨sameLength, entries⟩ := List.forall₂_iff_get.1 (Outcome.mapM_eq_ok.1 converted)
  rw [List.length_range] at sameLength
  have inGrays : index < grays.length := by omega
  have entry := entries index (by simpa using Nat.lt_succ_of_le within) inGrays
  simp only [List.get_eq_getElem, List.getElem_range, grayOfComponents, Outcome.bind_eq_ok,
    Outcome.pure_eq_ok] at entry
  obtain ⟨values, read, _, ⟨color, seen, rfl⟩, byte⟩ := entry
  exact ⟨values, color, read, seen, by rw [byte]; exact paletteEntry_deviceGray inGrays⟩

/-- A sample selects a color of a palette that is made gray, and the gray of this color in the gray
palette. -/
theorem toRgb_of_grayPalette (converted : grayPalette base last palette = .ok grays)
    (value : Single) :
    ∃ color, (indexed base last palette).toRgb [value] = .ok color ∧
      (indexed .deviceGray last grays).toRgb [value] = .ok color.grayed := by
  have within : paletteIndex last value ≤ last := Nat.min_le_right _ last
  obtain ⟨values, color, read, seen, readGray⟩ := entry_of_grayPalette converted within
  refine ⟨color, ?_, ?_⟩
  · rw [toRgb, ofOne, read]
    exact seen
  · rw [toRgb, ofOne, readGray]
    rfl

/-- Components are seen in a palette that is made gray as the gray of the color as which they were
seen before. -/
theorem toRgb_grayPalette (converted : grayPalette base last palette = .ok grays)
    (values : List Single) :
    (indexed .deviceGray last grays).toRgb values =
      Rgb.grayed <$> (indexed base last palette).toRgb values := by
  rcases values with _ | ⟨value, _ | ⟨_, _⟩⟩
  · rfl
  · obtain ⟨color, seen, seenGray⟩ := toRgb_of_grayPalette converted value
    rw [seen, seenGray]
    rfl
  · rfl

/-- The partner in gray of a palette. -/
theorem eq_indexed_of_toGray (converted : (indexed base last palette).toGray = .ok gray) :
    ∃ grays, grayPalette base last palette = .ok grays ∧ gray = indexed .deviceGray last grays := by
  simp only [toGray, Outcome.bind_eq_ok, Outcome.pure_eq_ok] at converted
  obtain ⟨grays, isPalette, rfl⟩ := converted
  exact ⟨grays, isPalette, rfl⟩

end ColorSpace
end Scalars

/-- The level of a byte. -/
theorem byteWithin_unit (byte : UInt8) :
    byteWithin byte ((0.0 : Float32), 1.0) = Scalar.ofNat byte.toNat / 255.0 := by
  have span : (1.0 : Float32) - 0.0 = 1.0 := by decide +kernel
  have level : ∀ number : Fin 256, (0.0 : Float32) + Scalar.ofNat number / 255.0 * 1.0 =
      Scalar.ofNat number / 255.0 := by
    decide +kernel
  rw [byteWithin, span]
  exact level ⟨byte.toNat, byte.toNat_lt⟩

end Monochrome
