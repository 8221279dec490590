import Monochrome.Proofs.ColorSpace.Gray
import Monochrome.Proofs.NumericFunction.Samples

/-!
# Partners of gray spaces

The partner of a color space has as many components, shows every color in gray, and has a partner
again.  Patterns, palettes and single inks have partners of their own kind; of the other spaces those
with one, three or four components have one.
-/

namespace Monochrome

open Limited Outcome

/-- Readings of the elements of a list succeed if each of them does. -/
theorem Outcome.exists_mapM_eq_ok {α β : Type} {read : α → Outcome β} {list : List α}
    (each : ∀ element ∈ list, ∃ value, read element = .ok value) :
    ∃ values, list.mapM read = .ok values := by
  cases reads : list.mapM read with
  | ok values => exact ⟨values, rfl⟩
  | error fault =>
      obtain ⟨before, element, after, rfl, -, failed⟩ := mapM_eq_error.1 reads
      obtain ⟨value, succeeded⟩ := each element (by simp)
      rw [succeeded] at failed
      cases failed

namespace ColorSpace

variable {space gray : ColorSpace Float32 Float}

/-- Whether the partner of a space is of the kind of the space: whether it is a space of patterns, a
palette or a single ink. -/
def hasOwnPartner : ColorSpace Float32 Float → Bool
  | pattern | patternOver _ | indexed _ _ _ | separation _ _ _ => true
  | deviceN colorants _ _ _ => colorants.length == 1
  | _ => false

/-! ## Colors and components of partners -/

/-- The partner of a color space shows colors that are neutral. -/
theorem eq_neutral_of_toGray {color : Color Float32} {seen : Rgb Float32}
    (converted : space.toGray = .ok gray) (shown : gray.colorToRgb color = .ok seen) :
    ∃ level, seen = .neutral level := by
  have isGray := isGray_of_toGray converted
  cases color with
  | components values => exact isGray.showsGray.eq_neutral shown
  | pattern name underlying =>
      cases underlying with
      | none => cases shown
      | some values =>
          cases isGray with
          | patternOver => exact eq_neutral_of_deviceGray shown
          | _ => cases shown

/-- A space that has no partner of its own kind has that of its number of components. -/
theorem toGray_eq_grayOfCount (general : space.hasOwnPartner = false) :
    space.toGray = grayOfCount space.componentCount := by
  unfold toGray
  split <;> first | rfl | cases general

/-- The gray space with a number of components has them. -/
theorem componentCount_of_grayOfCount {count : Nat} (found : grayOfCount count = .ok gray) :
    gray.componentCount = count := by
  unfold grayOfCount at found
  split_ifs at found with one three four
  · exact Except.ok.inj found ▸ one.symm
  · exact Except.ok.inj found ▸ three.symm
  · exact Except.ok.inj found ▸ four.symm

/-- The partner of a color space has as many components, if the space is none of patterns over another
space. -/
theorem componentCount_of_toGray (plain : ∀ underlying, space ≠ .patternOver underlying)
    (converted : space.toGray = .ok gray) : gray.componentCount = space.componentCount := by
  unfold toGray at converted
  split at converted
  next => exact Except.ok.inj converted ▸ rfl
  next underlying => exact (plain underlying rfl).elim
  next =>
    obtain ⟨palette, -, isGray⟩ := bind_eq_ok.1 converted
    exact Except.ok.inj isGray ▸ rfl
  next =>
    obtain ⟨tint, -, isGray⟩ := bind_eq_ok.1 converted
    exact Except.ok.inj isGray ▸ rfl
  next =>
    obtain ⟨tint, -, isGray⟩ := bind_eq_ok.1 converted
    exact Except.ok.inj isGray ▸ rfl
  next => exact componentCount_of_grayOfCount converted

/-- The partner of a color space is one of patterns if the space is. -/
theorem isPattern_of_toGray (converted : space.toGray = .ok gray) :
    gray.isPattern = space.isPattern := by
  unfold toGray at converted
  split at converted
  next => exact Except.ok.inj converted ▸ rfl
  next => exact Except.ok.inj converted ▸ rfl
  next =>
    obtain ⟨palette, -, isGray⟩ := bind_eq_ok.1 converted
    exact Except.ok.inj isGray ▸ rfl
  next =>
    obtain ⟨tint, -, isGray⟩ := bind_eq_ok.1 converted
    exact Except.ok.inj isGray ▸ rfl
  next =>
    obtain ⟨tint, -, isGray⟩ := bind_eq_ok.1 converted
    exact Except.ok.inj isGray ▸ rfl
  next notPattern notOver _ _ _ =>
    have plain : space.isPattern = false := by
      cases space with
      | pattern => exact (notPattern rfl).elim
      | patternOver underlying => exact (notOver underlying rfl).elim
      | _ => rfl
    unfold grayOfCount at converted
    split_ifs at converted <;> exact Except.ok.inj converted ▸ plain.symm

/-! ## Partners of partners -/

/-- A palette of gray with an entry for each index has gray bytes. -/
theorem exists_grayPalette {last : Nat} {palette : Bytes} (full : palette.length = last + 1) :
    ∃ bytes, grayPalette (deviceGray : ColorSpace Float32 Float) last palette = .ok bytes := by
  refine exists_mapM_eq_ok fun index isIndex => ?_
  obtain ⟨byte, isByte⟩ : ∃ byte, (palette.drop index).take 1 = [byte] := by
    refine List.length_eq_one_iff.1 ?_
    have := List.mem_range.1 isIndex
    simp only [List.length_take, List.length_drop]
    omega
  have isEntry : paletteEntry (deviceGray : ColorSpace Float32 Float) palette index =
      .ok [byteWithin byte (0.0, 1.0)] := by
    simp [paletteEntry, componentCount, isByte, sampleIntervals]
  rw [isEntry]
  exact ⟨_, rfl⟩

/-- The bytes of a gray palette are one for each index. -/
theorem length_of_grayPalette {base : ColorSpace Float32 Float} {last : Nat} {palette gray : Bytes}
    (found : grayPalette base last palette = .ok gray) : gray.length = last + 1 := by
  simpa using (mapM_eq_ok.1 found).length_eq.symm

/-- A space has a tint in gray if it shows each single component. -/
theorem exists_grayTint (space : ColorSpace Float32 Float)
    (shows : ∀ value, ∃ color, space.toRgb [value] = .ok color) :
    ∃ tint, space.grayTint = .ok tint := by
  obtain ⟨samples, sampled⟩ : ∃ samples, (List.range 256).mapM
      (fun step => space.grayOfComponents [Scalar.ofNat step / 255.0]) = .ok samples := by
    refine exists_mapM_eq_ok fun step _ => ?_
    obtain ⟨color, shown⟩ := shows (Scalar.ofNat step / 255.0)
    exact ⟨_, by rw [grayOfComponents, shown]; rfl⟩
  exact ⟨_, by rw [grayTint, sampled]; rfl⟩

/-- Inks over gray with the tint of a space show each single component. -/
theorem exists_alternateColor_grayTint {tint : NumericFunction Float32 Float}
    (isTint : space.grayTint = .ok tint) (value : Float32) :
    ∃ level, alternateColor (deviceGray : ColorSpace Float32 Float) tint [value] = .ok [level] := by
  obtain ⟨samples, sampled, isThrough⟩ := bind_eq_ok.1 isTint
  have enough : samples.length = 256 := by simpa using (mapM_eq_ok.1 sampled).length_eq.symm
  obtain ⟨level, isLevel⟩ :=
    NumericFunction.exists_apply_throughSamples samples (by omega) (by omega) value
  obtain rfl := Except.ok.inj isThrough
  exact ⟨level, by rw [alternateColor, isLevel]; rfl⟩

/-- The gray space with a number of components has a partner. -/
theorem exists_toGray_of_grayOfCount {count : Nat} (found : grayOfCount count = .ok gray) :
    ∃ again, gray.toGray = .ok again := by
  unfold grayOfCount at found
  split_ifs at found <;> obtain rfl := Except.ok.inj found <;> exact ⟨_, rfl⟩

/-- The partner of a color space has a partner. -/
theorem exists_toGray_of_toGray (converted : space.toGray = .ok gray) :
    ∃ again, gray.toGray = .ok again := by
  unfold toGray at converted
  split at converted
  next =>
    obtain rfl := Except.ok.inj converted
    exact ⟨_, rfl⟩
  next =>
    obtain rfl := Except.ok.inj converted
    exact ⟨_, rfl⟩
  next base last palette =>
    obtain ⟨grayed, isGrayed, isGray⟩ := bind_eq_ok.1 converted
    obtain ⟨bytes, found⟩ := exists_grayPalette (length_of_grayPalette isGrayed)
    obtain rfl := Except.ok.inj isGray
    exact ⟨.indexed deviceGray last bytes, by rw [toGray, found]; rfl⟩
  next colorant alternate tint =>
    obtain ⟨grayed, isGrayed, isGray⟩ := bind_eq_ok.1 converted
    obtain rfl := Except.ok.inj isGray
    obtain ⟨again, found⟩ := exists_grayTint (separation colorant deviceGray grayed)
      fun value => by
        obtain ⟨level, isLevel⟩ := exists_alternateColor_grayTint isGrayed value
        exact ⟨.neutral level, by rw [toRgb, ofOne, isLevel]; rfl⟩
    exact ⟨.separation colorant deviceGray again, by rw [toGray, found]; rfl⟩
  next colorant alternate tint attributes =>
    obtain ⟨grayed, isGrayed, isGray⟩ := bind_eq_ok.1 converted
    obtain rfl := Except.ok.inj isGray
    obtain ⟨again, found⟩ := exists_grayTint
      (deviceN [colorant] deviceGray grayed attributes) fun value => by
        obtain ⟨level, isLevel⟩ := exists_alternateColor_grayTint isGrayed value
        exact ⟨.neutral level, by simp [toRgb, ofMany, ofOne, isLevel]⟩
    exact ⟨.deviceN [colorant] deviceGray again attributes, by rw [toGray, found]; rfl⟩
  next => exact exists_toGray_of_grayOfCount converted

/-- The partner of a space with several components, which is none of patterns, is its own partner. -/
theorem toGray_of_toGray_of_many (plain : space.isPattern = false) (many : space.componentCount ≠ 1)
    (converted : space.toGray = .ok gray) : gray.toGray = .ok gray := by
  have general : space.hasOwnPartner = false := by
    cases space with
    | pattern | patternOver => cases plain
    | indexed | separation => exact absurd rfl many
    | deviceN colorants =>
        rw [hasOwnPartner, beq_eq_false_iff_ne]
        exact many
    | _ => rfl
  rw [toGray_eq_grayOfCount general] at converted
  unfold grayOfCount at converted
  split_ifs at converted <;> obtain rfl := Except.ok.inj converted <;> rfl

/-! ## What partners are -/

/-- The partner of a color space shows every color in gray, each channel being the same value.  It has
as many components as the space, unless that is one of patterns over another space, and it has a partner
again.  A space that has no partner of its own kind has one if it has one, three or four components;
otherwise the number is told. -/
theorem toGray_neutral_again (space : ColorSpace Float32 Float) :
    (∀ gray, space.toGray = .ok gray →
      (∀ color seen, gray.colorToRgb color = .ok seen →
        seen.red = seen.green ∧ seen.green = seen.blue) ∧
      ((∀ underlying, space ≠ .patternOver underlying) →
        gray.componentCount = space.componentCount) ∧
      ∃ again, gray.toGray = .ok again) ∧
    (space.hasOwnPartner = false →
      ((∃ gray, space.toGray = .ok gray) ↔ space.componentCount ∈ [1, 3, 4]) ∧
      (space.componentCount ∉ [1, 3, 4] →
        space.toGray = .error (.unsupportedSpace space.componentCount))) := by
  refine ⟨fun gray converted => ⟨fun color seen shown => ?neutral, fun plain => ?arity, ?again⟩,
    fun general => ?general⟩
  case neutral =>
    obtain ⟨level, rfl⟩ := eq_neutral_of_toGray converted shown
    exact ⟨rfl, rfl⟩
  case arity => exact componentCount_of_toGray plain converted
  case again => exact exists_toGray_of_toGray converted
  case general =>
    rw [toGray_eq_grayOfCount general]
    generalize space.componentCount = count
    simp only [List.mem_cons, List.not_mem_nil, or_false]
    rw [grayOfCount]
    split_ifs with one three four
    · simp [one]
    · simp [three]
    · simp [four]
    · simp [one, three, four]

/-- A palette of red and blue has a partner, in which red is seen as a gray; a profile with two
components has none. -/
theorem toGray_neutral_again_palette :
    (∃ gray seen, (indexed deviceRgb 1 [255, 0, 0, 0, 0, 255] : ColorSpace Float32 Float).toGray =
        .ok gray ∧ gray.colorToRgb (.components [0.0]) = .ok seen ∧
      (seen.red = seen.green ∧ seen.green = seen.blue) ∧ gray.componentCount = 1 ∧
      ∃ again, gray.toGray = .ok again) ∧
    (profile 2 .null : ColorSpace Float32 Float).toGray = .error (.unsupportedSpace 2) := by
  have isGrayed : grayPalette (deviceRgb : ColorSpace Float32 Float) 1 [255, 0, 0, 0, 0, 255] =
      .ok [77, 28] := by decide +kernel
  have converted : (indexed deviceRgb 1 [255, 0, 0, 0, 0, 255] : ColorSpace Float32 Float).toGray =
      .ok (indexed deviceGray 1 [77, 28]) := by rw [toGray, isGrayed]; rfl
  have shown : (indexed deviceGray 1 [77, 28] : ColorSpace Float32 Float).colorToRgb
      (.components [0.0]) = .ok (.neutral (77.0 / 255.0)) := by decide +kernel
  obtain ⟨neutral, arity, again⟩ := (toGray_neutral_again _).1 _ converted
  exact ⟨⟨_, _, converted, shown, neutral _ _ shown, arity (fun _ => nofun), again⟩,
    ((toGray_neutral_again _).2 rfl).2 (by decide)⟩

end ColorSpace
end Monochrome
