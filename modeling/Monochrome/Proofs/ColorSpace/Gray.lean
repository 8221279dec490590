import Monochrome.Proofs.Conversion.PatternSpaces

/-!
# Gray color spaces

What a conversion puts in the place of a color space is a gray space: gray itself, patterns, or a
palette or inks over gray.  As it is stored, it is read as a gray space in every document, and in a
gray space only neutral colors are seen.
-/

namespace Monochrome

/-- A color space that a conversion leaves. -/
inductive ColorSpace.IsGray : ColorSpace Float32 Float → Prop
  /-- Gray itself. -/
  | deviceGray : IsGray .deviceGray
  /-- Patterns without a color under them. -/
  | pattern : IsGray .pattern
  /-- Patterns over gray. -/
  | patternOver : IsGray (.patternOver .deviceGray)
  /-- A palette of gray. -/
  | indexed (last : Nat) (palette : Bytes) : IsGray (.indexed .deviceGray last palette)
  /-- An ink with a gray level. -/
  | separation (colorant : String) (tint : NumericFunction Float32 Float) :
      IsGray (.separation colorant .deviceGray tint)
  /-- Inks with a gray level. -/
  | deviceN (colorants : List String) (tint : NumericFunction Float32 Float)
      (attributes : Option Object) : IsGray (.deviceN colorants .deviceGray tint attributes)

/-- A color space in which every color that can be seen is neutral. -/
inductive ColorSpace.ShowsGray : ColorSpace Float32 Float → Prop
  /-- Gray itself. -/
  | deviceGray : ShowsGray .deviceGray
  /-- Calibrated gray. -/
  | calGray (source : Object) : ShowsGray (.calGray source)
  /-- Patterns, which are no colors. -/
  | pattern : ShowsGray .pattern
  /-- Patterns over another space. -/
  | patternOver (underlying : ColorSpace Float32 Float) : ShowsGray (.patternOver underlying)
  /-- A profile with one component. -/
  | profile (source : Object) : ShowsGray (.profile 1 source)
  /-- A profile that names a space that shows gray. -/
  | profileOver (components : Nat) (source : Object) {alternate : ColorSpace Float32 Float}
      (shows : ShowsGray alternate) : ShowsGray (.profileOver components alternate source)
  /-- A palette of a space that shows gray. -/
  | indexed (last : Nat) (palette : Bytes) {base : ColorSpace Float32 Float}
      (shows : ShowsGray base) : ShowsGray (.indexed base last palette)
  /-- An ink over a space that shows gray. -/
  | separation (colorant : String) (tint : NumericFunction Float32 Float)
      {alternate : ColorSpace Float32 Float} (shows : ShowsGray alternate) :
      ShowsGray (.separation colorant alternate tint)
  /-- Inks over a space that shows gray. -/
  | deviceN (colorants : List String) (tint : NumericFunction Float32 Float)
      (attributes : Option Object) {alternate : ColorSpace Float32 Float}
      (shows : ShowsGray alternate) : ShowsGray (.deviceN colorants alternate tint attributes)

/-- A color space as a conversion stores it. -/
inductive Object.StoresGray : Object → Prop
  /-- The name of gray. -/
  | deviceGray : StoresGray (.named "DeviceGray")
  /-- The name of patterns. -/
  | pattern : StoresGray (.named "Pattern")
  /-- Patterns over gray. -/
  | patternOver : StoresGray grayPatternSpace
  /-- A palette of gray. -/
  | indexed (last palette : Object) :
      StoresGray (.array [.named "Indexed", .named "DeviceGray", last, palette])
  /-- An ink with a gray level. -/
  | separation (colorant tint : Object) :
      StoresGray (.array [.named "Separation", colorant, .named "DeviceGray", tint])
  /-- Inks with a gray level. -/
  | deviceN (colorants tint : Object) (attributes : List Object) :
      StoresGray (.array (.named "DeviceN" :: colorants :: .named "DeviceGray" :: tint :: attributes))

namespace ColorSpace

variable {document : Document} {space gray : ColorSpace Float32 Float}

/-- The partner of a color space is gray. -/
theorem isGray_of_toGray (converted : space.toGray = .ok gray) : gray.IsGray := by
  unfold toGray at converted
  split at converted
  · exact Except.ok.inj converted ▸ .pattern
  · exact Except.ok.inj converted ▸ .patternOver
  · simp only [Outcome.bind_eq_ok, Outcome.pure_eq_ok] at converted
    obtain ⟨palette, _, rfl⟩ := converted
    exact .indexed _ palette
  · simp only [Outcome.bind_eq_ok, Outcome.pure_eq_ok] at converted
    obtain ⟨tint, _, rfl⟩ := converted
    exact .separation _ tint
  · simp only [Outcome.bind_eq_ok, Outcome.pure_eq_ok] at converted
    obtain ⟨tint, _, rfl⟩ := converted
    exact .deviceN _ tint _
  · unfold grayOfCount at converted
    split_ifs at converted
    · exact Except.ok.inj converted ▸ .deviceGray
    · exact Except.ok.inj converted ▸ .deviceN _ _ _
    · exact Except.ok.inj converted ▸ .deviceN _ _ _

/-- A gray space is stored as one. -/
theorem IsGray.storesGray_toObject (isGray : gray.IsGray) (document : Document) :
    (gray.toObject document).1.StoresGray := by
  cases isGray with
  | deviceGray => exact .deviceGray
  | pattern => exact .pattern
  | patternOver => exact .patternOver
  | indexed last palette => exact .indexed _ _
  | separation colorant tint => exact .separation _ _
  | deviceN colorants tint attributes => exact .deviceN _ _ attributes.toList

/-- Components of gray are seen as a neutral color. -/
theorem eq_neutral_of_deviceGray {values : List Float32} {color : Rgb Float32}
    (seen : (deviceGray : ColorSpace Float32 Float).toRgb values = .ok color) :
    ∃ level, color = .neutral level := by
  cases values with
  | nil => simp [toRgb, ofOne] at seen
  | cons level rest =>
      cases rest with
      | nil => exact ⟨level, (Except.ok.inj seen).symm⟩
      | cons => simp [toRgb, ofOne] at seen

/-- Components of a space that shows gray are seen as a neutral color, if as one at all. -/
theorem ShowsGray.eq_neutral {values : List Float32} {color : Rgb Float32}
    (shows : space.ShowsGray) (seen : space.toRgb values = .ok color) :
    ∃ level, color = .neutral level := by
  induction shows generalizing values with
  | deviceGray | calGray => exact eq_neutral_of_deviceGray seen
  | pattern | patternOver =>
      simp only [toRgb, ofMany] at seen
      split at seen <;> cases seen
  | profile =>
      unfold toRgb ofMany at seen
      split at seen
      · rename_i single
        obtain ⟨level, rfl⟩ := List.length_eq_one_iff.1 single
        exact ⟨level, (Except.ok.inj seen).symm⟩
      · cases seen
  | profileOver components source shows inductionHypothesis =>
      unfold toRgb ofMany at seen
      split at seen
      · exact inductionHypothesis seen
      · cases seen
  | indexed _ _ shows inductionHypothesis | separation _ _ shows inductionHypothesis =>
      unfold toRgb ofOne at seen
      split at seen
      · simp only [Outcome.bind_eq_ok] at seen
        obtain ⟨components, _, seen⟩ := seen
        exact inductionHypothesis seen
      · cases seen
  | deviceN colorants tint attributes shows inductionHypothesis =>
      unfold toRgb ofMany at seen
      split at seen
      · simp only [Outcome.bind_eq_ok] at seen
        obtain ⟨components, _, seen⟩ := seen
        exact inductionHypothesis seen
      · cases seen

/-- A gray space shows gray. -/
theorem IsGray.showsGray (isGray : space.IsGray) : space.ShowsGray := by
  cases isGray with
  | deviceGray => exact .deviceGray
  | pattern => exact .pattern
  | patternOver => exact .patternOver _
  | indexed last palette => exact .indexed _ _ .deviceGray
  | separation colorant tint => exact .separation _ _ .deviceGray
  | deviceN colorants tint attributes => exact .deviceN _ _ _ .deviceGray

section Reading

variable {inner : Object → Outcome (ColorSpace Float32 Float)}

/-- The name of gray is read as gray. -/
theorem eq_deviceGray_of_readWithin {depth : Nat}
    (found : readWithin document depth (.named "DeviceGray") = .ok space) : space = .deviceGray := by
  cases depth with
  | zero => cases found
  | succ depth =>
      rw [readWithin_deviceGray] at found
      exact (Except.ok.inj found).symm

/-- A name in a document stands for itself. -/
theorem resolve_named (document : Document) (text : String) :
    document.resolve (.named text) = .ok (.named text) :=
  Document.resolve_of_value rfl

/-- An array that a conversion stores is read as a gray space, if gray is read as such. -/
theorem isGray_of_readArray {items : List Object} (stores : (Object.array items).StoresGray)
    (readsGray : ∀ space, inner (.named "DeviceGray") = .ok space → space = .deviceGray)
    (found : readArray document inner items = .ok space) : space.IsGray := by
  have spelled {text : String} (isAscii : Bytes.ascii text = Text.toBytes text) :
      (Object.named text).asText = .ok text := by
    rw [Object.named, Object.asText, Object.text?, Text.ofBytes_ascii isAscii]
  generalize isArray : Object.array items = object at stores
  cases stores with
  | deviceGray | pattern => cases isArray
  | patternOver =>
      obtain rfl := Object.array.inj isArray
      rw [readArray_pattern _ _ namesPattern_named] at found
      simp only [element, List.cons_ne_nil, if_false, List.getElem?_cons_succ,
        List.getElem?_cons_zero, resolve_named, Outcome.bind_eq_ok, Outcome.pure_eq_ok,
        Except.ok.injEq, exists_eq_left'] at found
      obtain ⟨below, read, rfl⟩ := found
      rw [readsGray below read]
      exact .patternOver
  | indexed last palette =>
      obtain rfl := Object.array.inj isArray
      have family : (Object.named "Indexed").asText = .ok "Indexed" := spelled (by decide)
      simp [readArray, resolve_named, family, element, Outcome.bind_eq_ok] at found
      obtain ⟨base, read, _, _, found⟩ := found
      split at found
      · obtain ⟨_, _, found⟩ := Outcome.bind_eq_ok.1 found
        obtain ⟨bytes, _, rfl⟩ := Outcome.map_eq_ok.1 found
        rw [readsGray base read]
        exact .indexed _ bytes
      · cases found
  | separation colorant tint =>
      obtain rfl := Object.array.inj isArray
      have family : (Object.named "Separation").asText = .ok "Separation" := spelled (by decide)
      simp [readArray, resolve_named, family, element, Outcome.bind_eq_ok, Outcome.map_eq_ok]
        at found
      obtain ⟨_, _, colorant, _, alternate, read, _, _, tint, _, rfl⟩ := found
      rw [readsGray alternate read]
      exact .separation colorant tint
  | deviceN names tint attributes =>
      obtain rfl := Object.array.inj isArray
      have family : (Object.named "DeviceN").asText = .ok "DeviceN" := spelled (by decide)
      simp [readArray, resolve_named, family, element, Outcome.bind_eq_ok, Outcome.map_eq_ok]
        at found
      obtain ⟨_, _, colorants, _, alternate, read, _, _, tint, _, rfl⟩ := found
      rw [readsGray alternate read]
      exact .deviceN colorants tint _

end Reading

/-- A space that a conversion stores is read as a gray space in every document. -/
theorem isGray_of_read {object : Object} (stores : object.StoresGray)
    (found : read document object = .ok space) : space.IsGray := by
  have isValue : object.isReference = false := by cases stores <;> rfl
  unfold read at found
  cases budget : NumericFunction.readingBudget document object with
  | zero => simp [budget, readWithin] at found
  | succ depth =>
      rw [budget] at found
      cases object with
      | array items =>
          rw [readWithin_value isValue] at found
          exact isGray_of_readArray stores (fun _ => eq_deviceGray_of_readWithin) found
      | name bytes =>
          generalize isName : Object.name bytes = object at stores found
          cases stores with
          | deviceGray => exact eq_deviceGray_of_readWithin found ▸ .deviceGray
          | pattern =>
              have spelled : Text.ofBytes (Bytes.ascii "Pattern") = "Pattern" :=
                Text.ofBytes_ascii (by decide)
              rw [readWithin_value rfl] at found
              simp only [Object.named, spelled, ofName?, Except.ok.injEq] at found
              exact found ▸ .pattern
          | _ => cases isName
      | _ => cases stores

end ColorSpace
end Monochrome
