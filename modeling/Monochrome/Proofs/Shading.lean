import Monochrome.Proofs.ColorSpace.GrayAgain
import Monochrome.Proofs.ColorSpace.Storing
import Monochrome.Proofs.Detection.Products

/-!
# Shadings in gray

A shading in gray is the shading with another color space, and with another background if it had one.
The color space is read from what was stored for it, and has as many components as before, so that the
function or the mesh of the shading fits in it, and so does the background.  A detector finds no color in
the shading, and it can be made gray again.
-/

namespace Monochrome
namespace Shading

open Limited Outcome

variable {document later : Document} {shading result : Object}
variable {space gray : ColorSpace Float32 Float}

/-! ## What is changed -/

/-- Whether a dictionary differs from another one at most in its color space, and in its background if
it has one. -/
structure SameButColors (entries changed : Dictionary) : Prop where
  others key : key ≠ Bytes.ascii "ColorSpace" → key ≠ Bytes.ascii "Background" →
    changed.find? key = entries.find? key
  background : (changed.get? "Background").isSome = (entries.get? "Background").isSome

/-- Whether a shading is another one with other colors: with the same data if it is a mesh, and with a
dictionary that differs at most in its colors. -/
inductive IsRecolored : Object → Object → Prop
  | dictionary {entries changed : Dictionary} (same : SameButColors entries changed) :
      IsRecolored (.dictionary entries) (.dictionary changed)
  | stream {entries changed : Dictionary} (data : Bytes) (same : SameButColors entries changed) :
      IsRecolored (.stream entries data) (.stream changed data)

/-- A dictionary with a color space, and with a background if there is one. -/
def recolor (space : Object) (background : Option (List Float32)) (entries : Dictionary) :
    Dictionary :=
  match background with
  | some values => (entries.set "ColorSpace" space).set "Background" (Object.reals values)
  | none => entries.set "ColorSpace" space

/-- A recolored dictionary has the color space. -/
theorem get?_recolor_space (space : Object) (background : Option (List Float32))
    (entries : Dictionary) : (recolor space background entries).get? "ColorSpace" = some space := by
  have apart : Bytes.ascii "Background" ≠ Bytes.ascii "ColorSpace" := by decide
  cases background <;> simp [recolor, apart]

/-- A recolored dictionary has the background if there is one, and else what it had. -/
theorem get?_recolor_background (space : Object) (background : Option (List Float32))
    (entries : Dictionary) : (recolor space background entries).get? "Background" =
      (background.map Object.reals).or (entries.get? "Background") := by
  have apart : Bytes.ascii "ColorSpace" ≠ Bytes.ascii "Background" := by decide
  cases background <;> simp [recolor, apart]

/-- A recolored dictionary differs in its colors, if it has a background as before. -/
theorem sameButColors_recolor (space : Object) {background : Option (List Float32)}
    {entries : Dictionary} (has : background.isSome = (entries.get? "Background").isSome) :
    SameButColors entries (recolor space background entries) where
  others key notSpace notBackground := by
    cases background <;>
      simp [recolor, Dictionary.set, notSpace.symm, notBackground.symm]
  background := by
    rw [get?_recolor_background]
    cases background with
    | none => rfl
    | some values => exact has

/-- The dictionary of a changed shading. -/
theorem entries_changeEntries {entries : Dictionary} (change : Dictionary → Dictionary)
    (isShading : Shading.entries shading = .ok entries) :
    Shading.entries (changeEntries change shading) = .ok (change entries) := by
  cases shading with
  | dictionary | stream =>
      obtain rfl := Except.ok.inj isShading
      rfl
  | _ => cases isShading

/-- A shading is recolored if its dictionary is changed in its colors only. -/
theorem isRecolored_changeEntries {entries : Dictionary} {change : Dictionary → Dictionary}
    (isShading : Shading.entries shading = .ok entries)
    (same : SameButColors entries (change entries)) :
    IsRecolored shading (changeEntries change shading) := by
  cases shading with
  | dictionary =>
      obtain rfl := Except.ok.inj isShading
      exact .dictionary same
  | stream _ data =>
      obtain rfl := Except.ok.inj isShading
      exact .stream data same
  | _ => cases isShading

/-! ## The parts of a conversion -/

/-- A shading becomes gray if its color space has a partner, and its background is one of the space. -/
theorem grayParts_eq_ok {background : Option (List Float32)} :
    grayParts document shading = .ok (gray, background) ↔
      ∃ space dictionary values, colorSpace document shading = .ok space ∧ space.toGray = .ok gray ∧
        entries shading = .ok dictionary ∧
        (dictionary.get? "Background").mapM document.numbers = .ok values ∧
        values.mapM (grayBackground space gray) = .ok background := by
  simp only [grayParts, bind_eq_ok, pure_eq_ok, Prod.mk.injEq]
  constructor
  · rintro ⟨space, isSpace, _, isGray, dictionary, isShading, values, areNumbers, _, inGray, rfl, rfl⟩
    exact ⟨space, dictionary, values, isSpace, isGray, isShading, areNumbers, inGray⟩
  · rintro ⟨space, dictionary, values, isSpace, isGray, isShading, areNumbers, inGray⟩
    exact ⟨space, isSpace, gray, isGray, dictionary, isShading, values, areNumbers, background, inGray,
      rfl, rfl⟩

/-- A shading in gray is the shading recolored with its parts in gray, the space as it is stored. -/
theorem toGray_eq_ok : toGray shading document = .ok result later ↔
    ∃ gray background, grayParts document shading = .ok (gray, background) ∧
      (gray.toObject document).2 = later ∧
      changeEntries (recolor (gray.toObject document).1 background) shading = result := by
  simp only [toGray, Change.bind_eq_ok, Change.get_eq_ok, Change.lift_eq_ok, Change.pure_eq_ok,
    Change.always_eq_ok]
  constructor
  · rintro ⟨_, _, ⟨rfl, rfl⟩, ⟨gray, background⟩, _, ⟨parts, rfl⟩, _, _, ⟨rfl, rfl⟩, rfl, rfl⟩
    refine ⟨gray, background, parts, rfl, ?_⟩
    cases background <;> rfl
  · rintro ⟨gray, background, parts, rfl, rfl⟩
    refine ⟨_, _, ⟨rfl, rfl⟩, (gray, background), _, ⟨parts, rfl⟩, _, _, ⟨rfl, rfl⟩, ?_, rfl⟩
    cases background <;> rfl

/-- A background in gray has as many numbers as the space has components. -/
theorem length_of_grayBackground {values levels : List Float32}
    (fits : gray.componentCount = space.componentCount)
    (inGray : grayBackground space gray values = .ok levels) :
    levels.length = space.componentCount := by
  obtain ⟨color, isColor, inGray⟩ := bind_eq_ok.1 inGray
  split at inGray
  · obtain ⟨level, -, inGray⟩ := bind_eq_ok.1 inGray
    obtain rfl := pure_eq_ok.1 inGray
    exact fits
  · obtain rfl := pure_eq_ok.1 inGray
    rw [ColorSpace.makeColor] at isColor
    split_ifs at isColor with enough
    exact enough

/-- Only gray itself, of all gray spaces, has gray itself as its partner. -/
theorem eq_deviceGray_of_toGray (isGray : gray.IsGray) (converted : gray.toGray = .ok .deviceGray) :
    gray = .deviceGray := by
  cases isGray with
  | deviceGray => rfl
  | pattern | patternOver => cases converted
  | indexed | separation =>
      obtain ⟨_, -, converted⟩ := bind_eq_ok.1 converted
      cases converted
  | deviceN colorants =>
      unfold ColorSpace.toGray at converted
      split at converted
      case h_5 =>
        obtain ⟨_, -, converted⟩ := bind_eq_ok.1 converted
        cases converted
      case h_6 several =>
        have one : colorants.length = 1 :=
          (ColorSpace.componentCount_of_grayOfCount converted).symm
        obtain ⟨colorant, rfl⟩ := List.length_eq_one_iff.1 one
        exact (several _ _ _ _ rfl).elim
      all_goals contradiction

/-- A color of a gray space has a background in the partner of that. -/
theorem exists_grayBackground {again : ColorSpace Float32 Float} {values : List Float32}
    (isGray : gray.IsGray) (converted : gray.toGray = .ok again)
    (enough : values.length = gray.componentCount) :
    ∃ levels, grayBackground gray again values = .ok levels := by
  have isColor : gray.makeColor values = .ok (.components values) := if_pos enough
  rw [grayBackground, isColor, ok_bind]
  cases again with
  | deviceGray =>
      obtain rfl := eq_deviceGray_of_toGray isGray converted
      obtain ⟨level, rfl⟩ := List.length_eq_one_iff.1 enough
      exact ⟨_, rfl⟩
  | _ => exact ⟨values, rfl⟩

/-! ## The shading in gray -/

/-- The color space of a shading is read from an object. -/
theorem exists_read_of_colorSpace (isSpace : colorSpace document shading = .ok space) :
    ∃ object, ColorSpace.read document object = .ok space := by
  obtain ⟨dictionary, -, isSpace⟩ := bind_eq_ok.1 isSpace
  split at isSpace
  · exact ⟨_, isSpace⟩
  · cases isSpace

/-- The color space of a shading is read from the entry for it. -/
theorem colorSpace_of_entry {dictionary : Dictionary} {object : Object}
    (isShading : entries shading = .ok dictionary)
    (found : dictionary.get? "ColorSpace" = some object) :
    colorSpace document shading = ColorSpace.read document object := by
  rw [colorSpace, isShading, ok_bind, found]

/-- The color space of a shading in gray is the partner of the one that the shading had. -/
theorem colorSpace_of_toGray (isSpace : colorSpace document shading = .ok space)
    (isGray : space.toGray = .ok gray) (converted : toGray shading document = .ok result later) :
    colorSpace later result = .ok gray := by
  obtain ⟨gray', background, parts, rfl, rfl⟩ := toGray_eq_ok.1 converted
  obtain ⟨space', dictionary, -, isSpace', isGray', isShading, -⟩ := grayParts_eq_ok.1 parts
  obtain rfl : space' = space := Except.ok.inj (isSpace'.symm.trans isSpace)
  obtain rfl : gray' = gray := Except.ok.inj (isGray'.symm.trans isGray)
  obtain ⟨object, isRead⟩ := exists_read_of_colorSpace isSpace
  rw [colorSpace_of_entry (entries_changeEntries _ isShading) (get?_recolor_space _ _ _)]
  exact (ColorSpace.comesFrom_of_readWithin isRead).1.read_toObject_toGray isGray document

/-- A shading in gray differs from the shading in its colors.  Its background, if it has one, is a list
of as many numbers as its color space has components. -/
theorem recolored_of_toGray (isSpace : colorSpace document shading = .ok space)
    (isGray : space.toGray = .ok gray) (fits : gray.componentCount = space.componentCount)
    (converted : toGray shading document = .ok result later) :
    IsRecolored shading result ∧ ∃ dictionary background, entries result = .ok dictionary ∧
      dictionary.get? "Background" = Option.map Object.reals background ∧
      ∀ levels ∈ background, levels.length = gray.componentCount := by
  obtain ⟨gray', background, parts, rfl, rfl⟩ := toGray_eq_ok.1 converted
  obtain ⟨space', dictionary, values, isSpace', isGray', isShading, areNumbers, inGray⟩ :=
    grayParts_eq_ok.1 parts
  obtain rfl : space' = space := Except.ok.inj (isSpace'.symm.trans isSpace)
  obtain rfl : gray' = gray := Except.ok.inj (isGray'.symm.trans isGray)
  have same : background.isSome = (dictionary.get? "Background").isSome :=
    (isSome_of_mapOption inGray).trans (isSome_of_mapOption areNumbers)
  refine ⟨isRecolored_changeEntries isShading (sameButColors_recolor _ same), _, background,
    entries_changeEntries _ isShading, ?_, ?_⟩
  · rw [get?_recolor_background]
    cases background with
    | none => simpa using same
    | some levels => rfl
  · rintro levels ⟨⟩
    cases mapOption_eq_ok.1 inGray with
    | some inGray => rw [fits, length_of_grayBackground fits inGray]

/-- A shading with a gray color space, which is none of patterns, is not colored. -/
theorem isColored_eq_false (isSpace : colorSpace document shading = .ok gray) (isGray : gray.IsGray)
    (plain : gray.isPattern = false) : isColored document shading = .ok false := by
  rw [isColored, isSpace, ok_bind]
  cases isGray with
  | pattern | patternOver => cases plain
  | _ => rfl

/-- A shading with a gray color space becomes gray if its background is a color of the space. -/
theorem exists_toGray {again : ColorSpace Float32 Float} {dictionary : Dictionary}
    {background : Option (List Float32)} (isSpace : colorSpace document shading = .ok gray)
    (isGray : gray.IsGray) (converted : gray.toGray = .ok again)
    (isShading : entries shading = .ok dictionary)
    (isBackground : dictionary.get? "Background" = background.map Object.reals)
    (fits : ∀ levels ∈ background, levels.length = gray.componentCount) :
    ∃ result later, toGray shading document = .ok result later := by
  have areNumbers : (dictionary.get? "Background").mapM document.numbers = .ok background := by
    rw [isBackground, mapOption_eq_ok]
    cases background with
    | none => exact .none
    | some levels => exact .some (Document.numbers_reals document levels)
  obtain ⟨background', inGray⟩ : ∃ background', background.mapM (grayBackground gray again) =
      .ok background' := by
    cases background with
    | none => exact ⟨none, rfl⟩
    | some levels =>
        obtain ⟨levels', inGray⟩ := exists_grayBackground isGray converted (fits levels rfl)
        exact ⟨some levels', mapOption_eq_ok.2 (.some inGray)⟩
  have parts := grayParts_eq_ok.2
    ⟨gray, dictionary, background, isSpace, converted, isShading, areNumbers, inGray⟩
  exact ⟨_, _, toGray_eq_ok.2 ⟨again, background', parts, rfl, rfl⟩⟩

/-- A shading in gray, whose color space is none of patterns, differs from the shading in its color
space and its background only.  Its color space is read from what was stored for it and has as many
components as before, and its background has as many numbers.  It is not colored.  It becomes gray
again, and has an equal color space then if that has three or four components. -/
theorem toGray_recolors (isSpace : colorSpace document shading = .ok space)
    (plain : space.isPattern = false) (converted : toGray shading document = .ok result later) :
    IsRecolored shading result ∧
    ∃ gray, colorSpace later result = .ok gray ∧ gray.componentCount = space.componentCount ∧
      (∀ dictionary background, entries result = .ok dictionary →
        dictionary.get? "Background" = some background →
        ∃ levels, later.numbers background = .ok levels ∧ levels.length = space.componentCount) ∧
      isColored later result = .ok false ∧
      ∃ again last, toGray result later = .ok again last ∧
        (space.componentCount ∈ [3, 4] → colorSpace last again = .ok gray) := by
  obtain ⟨gray, isGray⟩ : ∃ gray, space.toGray = .ok gray := by
    obtain ⟨gray, _, parts, -⟩ := toGray_eq_ok.1 converted
    obtain ⟨_, _, _, isSpace', isGray, -⟩ := grayParts_eq_ok.1 parts
    obtain rfl := Except.ok.inj (isSpace'.symm.trans isSpace)
    exact ⟨gray, isGray⟩
  have fits : gray.componentCount = space.componentCount :=
    ColorSpace.componentCount_of_toGray (by rintro underlying rfl; cases plain) isGray
  have isRead := colorSpace_of_toGray isSpace isGray converted
  obtain ⟨recolored, dictionary, background, isShading, isBackground, enough⟩ :=
    recolored_of_toGray isSpace isGray fits converted
  have shape := ColorSpace.isGray_of_toGray isGray
  obtain ⟨partner, isPartner⟩ := ColorSpace.exists_toGray_of_toGray isGray
  obtain ⟨again, last, convertedAgain⟩ :=
    exists_toGray isRead shape isPartner isShading isBackground enough
  refine ⟨recolored, gray, isRead, fits, fun entries object isEntries found => ?background,
    isColored_eq_false isRead shape ?notPattern, again, last, convertedAgain, fun many => ?again⟩
  case background =>
    obtain rfl := Except.ok.inj (isShading.symm.trans isEntries)
    rw [isBackground, Option.map_eq_some_iff] at found
    obtain ⟨levels, isLevels, rfl⟩ := found
    exact ⟨levels, later.numbers_reals levels, (enough levels isLevels).trans fits⟩
  case notPattern => exact (ColorSpace.isPattern_of_toGray isGray).trans plain
  case again =>
    have several : space.componentCount ≠ 1 := by
      rintro one
      rw [one] at many
      simp at many
    exact colorSpace_of_toGray isRead
      (ColorSpace.toGray_of_toGray_of_many plain several isGray) convertedAgain

/-- The dictionary of a shading along an axis, in red, green and blue, with a red background. -/
def redAxis : Dictionary :=
  .ofEntries [("ShadingType", .integer 2), ("ColorSpace", .named "DeviceRGB"),
    ("Background", Object.reals [1.0, 0.0, 0.0]), ("Coords", Object.reals [0.0, 0.0, 1.0, 0.0])]

/-- The shading becomes gray, and has three inks over gray then; its background still has three numbers,
it is not colored, and it becomes gray again. -/
theorem toGray_recolors_redAxis :
    colorSpace default (.dictionary redAxis) = .ok .deviceRgb ∧
    ∃ result later, toGray (.dictionary redAxis) default = .ok result later ∧
      IsRecolored (.dictionary redAxis) result ∧
      ∃ gray, colorSpace later result = .ok gray ∧ gray.componentCount = 3 ∧
        (∀ dictionary background, entries result = .ok dictionary →
          dictionary.get? "Background" = some background →
          ∃ levels, later.numbers background = .ok levels ∧ levels.length = 3) ∧
        isColored later result = .ok false ∧
        ∃ again last, toGray result later = .ok again last ∧
          (3 ∈ [3, 4] → colorSpace last again = .ok gray) := by
  have isShading : entries (.dictionary redAxis) = .ok redAxis := rfl
  have isSpace : colorSpace default (.dictionary redAxis) = .ok .deviceRgb := by
    have found : redAxis.get? "ColorSpace" = some (.named "DeviceRGB") := rfl
    rw [colorSpace_of_entry isShading found]
    exact ColorSpace.read_named rfl
  have areNumbers : (redAxis.get? "Background").mapM (default : Document).numbers =
      .ok (some [1.0, 0.0, 0.0]) := by
    have found : redAxis.get? "Background" = some (Object.reals [1.0, 0.0, 0.0]) := rfl
    rw [found, mapOption_eq_ok]
    exact .some (Document.numbers_reals _ _)
  have inGray : Option.mapM (grayBackground .deviceRgb (.deviceN ["R", "G", "B"] .deviceGray
      .rgbToGray none)) (some [1.0, 0.0, 0.0]) = .ok (some [1.0, 0.0, 0.0]) :=
    mapOption_eq_ok.2 (.some rfl)
  have parts := grayParts_eq_ok.2 ⟨_, _, _, isSpace, rfl, isShading, areNumbers, inGray⟩
  have converted := toGray_eq_ok.2 ⟨_, _, parts, rfl, rfl⟩
  exact ⟨isSpace, _, _, converted, toGray_recolors isSpace rfl converted⟩

end Shading
end Monochrome
