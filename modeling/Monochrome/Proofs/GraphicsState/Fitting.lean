import Mathlib.Logic.Relation
import Monochrome.Proofs.Detection.Converted
import Monochrome.Proofs.GraphicsState.Restoring

/-!
# Colors that fit their spaces

Whatever operations a graphics state follows, and whatever spaces are selected in it, each color
fits the space beside it, in the current colors and in all that are saved: it has a component for
each that the space has, or it is a pattern in a pattern space.  A color that cannot be seen for
want of components was therefore not refused by its own space, but by one to which that space hands
components on: the space that a profile names, the base of a palette, or the alternate of inks.
-/

namespace Monochrome
namespace ColorSpace

open Relation Outcome

section Handing

variable {Single Double : Type}

section Readers

variable {values : List Single}

/-- One component is refused for its number, or by what sees it. -/
theorem unfitting_of_ofOne {convert : Single → Outcome (Rgb Single)}
    (unfitting : ofOne convert values = .error (.mismatch .fittingColor)) :
    values.length ≠ 1 ∨
      ∃ value, values = [value] ∧ convert value = .error (.mismatch .fittingColor) := by
  unfold ofOne at unfitting
  split at unfitting
  case h_1 value => exact Or.inr ⟨value, rfl, unfitting⟩
  case h_2 isNotOne =>
    left
    intro isOne
    obtain ⟨value, rfl⟩ := List.length_eq_one_iff.1 isOne
    exact isNotOne value rfl

/-- Three components are refused only for their number. -/
theorem unfitting_of_ofThree {convert : Single → Single → Single → Rgb Single}
    (unfitting : ofThree convert values = .error (.mismatch .fittingColor)) :
    values.length ≠ 3 := by
  intro areThree
  obtain ⟨first, second, third, rfl⟩ := List.length_eq_three.1 areThree
  cases unfitting

/-- Four components are refused only for their number. -/
theorem unfitting_of_ofFour {convert : Single → Single → Single → Single → Rgb Single}
    (unfitting : ofFour convert values = .error (.mismatch .fittingColor)) :
    values.length ≠ 4 := by
  intro areFour
  match values, areFour, unfitting with
  | [_, _, _, _], _, unfitting => cases unfitting

/-- Components are refused for their number, or by what sees them. -/
theorem unfitting_of_ofMany {count : Nat} {convert : List Single → Outcome (Rgb Single)}
    (unfitting : ofMany count convert values = .error (.mismatch .fittingColor)) :
    values.length ≠ count ∨
      values.length = count ∧ convert values = .error (.mismatch .fittingColor) := by
  unfold ofMany at unfitting
  split at unfitting
  case isTrue isMany => exact Or.inr ⟨isMany, unfitting⟩
  case isFalse isNotMany => exact Or.inl isNotMany

variable [Scalar Single]

/-- An entry that a palette lacks is no component that a space lacks. -/
theorem paletteEntry_ne_unfitting (base : ColorSpace Single Double) (palette : Bytes)
    (index : Nat) : paletteEntry base palette index ≠ .error (.mismatch .fittingColor) := by
  unfold paletteEntry
  dsimp only
  split <;> simp

variable [Scalar Double] [Precision Single Double]

/-- Components of a device space found by their number are as many as it has. -/
theorem deviceToRgb_ne_unfitting (values : List Single) :
    deviceToRgb values ≠ .error (.mismatch .fittingColor) := by
  unfold deviceToRgb
  split <;> simp

end Readers

variable [Scalar Single] [Analysis Single] [Scalar Double] [Analysis Double]
  [Precision Single Double]

/-- Whether a space sees components by handing others on to another space. -/
inductive HandsOn :
    ColorSpace Single Double × List Single → ColorSpace Single Double × List Single → Prop
  /-- A profile hands them on to the space that it names. -/
  | profile (alternate : ColorSpace Single Double) (source : Object) (values : List Single) :
      HandsOn (.profileOver values.length alternate source, values) (alternate, values)
  /-- A palette hands on the entry that it has. -/
  | indexed (base : ColorSpace Single Double) (last : Nat) (palette : Bytes) (value : Single)
      (entry : List Single)
      (isEntry : paletteEntry base palette (paletteIndex last value) = .ok entry) :
      HandsOn (.indexed base last palette, [value]) (base, entry)
  /-- An ink hands on what its function gives. -/
  | separation (colorant : String) (alternate : ColorSpace Single Double)
      (tint : NumericFunction Single Double) (value : Single) (mixed : List Single)
      (isMixed : alternateColor alternate tint [value] = .ok mixed) :
      HandsOn (.separation colorant alternate tint, [value]) (alternate, mixed)
  /-- Several inks hand on what their function gives. -/
  | deviceN (colorants : List String) (alternate : ColorSpace Single Double)
      (tint : NumericFunction Single Double) (attributes : Option Object) (values : List Single)
      (isMany : values.length = colorants.length) (mixed : List Single)
      (isMixed : alternateColor alternate tint values = .ok mixed) :
      HandsOn (.deviceN colorants alternate tint attributes, values) (alternate, mixed)

variable {space : ColorSpace Single Double} {values : List Single}

/-- A function that fails is no component that a space lacks. -/
theorem alternateColor_ne_unfitting (alternate : ColorSpace Single Double)
    (tint : NumericFunction Single Double) (values : List Single) :
    alternateColor alternate tint values ≠ .error (.mismatch .fittingColor) := by
  unfold alternateColor
  cases tint.apply values <;> simp [Except.mapError, bind, Except.bind, pure, Except.pure]

/-- Components that are refused for their number are so by the space itself or by one to which it
hands them on. -/
theorem handsOn_of_unfitting
    (unfitting : space.toRgb values = .error (.mismatch .fittingColor)) :
    values.length ≠ space.componentCount ∨
      ∃ inner handed, HandsOn (space, values) (inner, handed) ∧
        inner.toRgb handed = .error (.mismatch .fittingColor) := by
  cases space with
  | profileOver components alternate source =>
      rcases unfitting_of_ofMany unfitting with isNotMany | ⟨rfl, refused⟩
      · exact Or.inl isNotMany
      · exact Or.inr ⟨alternate, values, .profile alternate source values, refused⟩
  | indexed base last palette =>
      rcases unfitting_of_ofOne unfitting with isNotOne | ⟨value, rfl, unfitting⟩
      · exact Or.inl isNotOne
      · obtain refused | ⟨entry, isEntry, unfitting⟩ := bind_eq_error.1 unfitting
        · exact absurd refused (paletteEntry_ne_unfitting base palette _)
        · exact Or.inr ⟨base, entry, .indexed base last palette value entry isEntry, unfitting⟩
  | separation colorant alternate tint =>
      rcases unfitting_of_ofOne unfitting with isNotOne | ⟨value, rfl, unfitting⟩
      · exact Or.inl isNotOne
      · obtain refused | ⟨mixed, isMixed, unfitting⟩ := bind_eq_error.1 unfitting
        · exact absurd refused (alternateColor_ne_unfitting alternate tint _)
        · exact Or.inr ⟨alternate, mixed, .separation colorant alternate tint value mixed isMixed,
            unfitting⟩
  | deviceN colorants alternate tint attributes =>
      rcases unfitting_of_ofMany unfitting with isNotMany | ⟨isMany, unfitting⟩
      · exact Or.inl isNotMany
      · obtain refused | ⟨mixed, isMixed, unfitting⟩ := bind_eq_error.1 unfitting
        · exact absurd refused (alternateColor_ne_unfitting alternate tint _)
        · exact Or.inr ⟨alternate, mixed,
            .deviceN colorants alternate tint attributes values isMany mixed isMixed, unfitting⟩
  | profile components source =>
      rcases unfitting_of_ofMany unfitting with isNotMany | ⟨-, unfitting⟩
      · exact Or.inl isNotMany
      · exact absurd unfitting (deviceToRgb_ne_unfitting values)
  | pattern | patternOver =>
      rcases unfitting_of_ofMany unfitting with isNotMany | ⟨-, unfitting⟩
      · exact Or.inl isNotMany
      · cases unfitting
  | deviceGray | calGray =>
      rcases unfitting_of_ofOne unfitting with isNotOne | ⟨value, -, unfitting⟩
      · exact Or.inl isNotOne
      · cases unfitting
  | deviceRgb | calRgb | lab => exact Or.inl (unfitting_of_ofThree unfitting)
  | deviceCmyk => exact Or.inl (unfitting_of_ofFour unfitting)

/-- Components that are refused for their number reach a space that has not as many. -/
theorem exists_handsOn_of_unfitting
    (unfitting : space.toRgb values = .error (.mismatch .fittingColor)) :
    ∃ inner handed, ReflTransGen HandsOn (space, values) (inner, handed) ∧
      handed.length ≠ inner.componentCount := by
  induction space generalizing values with
  | profileOver _ _ _ inductionHypothesis | indexed _ _ _ inductionHypothesis
  | separation _ _ _ inductionHypothesis | deviceN _ _ _ _ inductionHypothesis =>
      rcases handsOn_of_unfitting unfitting with isNotMany | ⟨next, others, handsOn, refused⟩
      · exact ⟨_, _, .refl, isNotMany⟩
      · have step := handsOn
        cases handsOn
        obtain ⟨inner, handed, reached, lacks⟩ := inductionHypothesis refused
        exact ⟨inner, handed, .head step reached, lacks⟩
  | _ =>
      rcases handsOn_of_unfitting unfitting with isNotMany | ⟨_, _, handsOn, _⟩
      · exact ⟨_, _, .refl, isNotMany⟩
      · cases handsOn

end Handing

section Making

variable {Single Double : Type}

/-- A color that is made of components has as many as the space. -/
theorem makeColor_eq_ok {space : ColorSpace Single Double} {values : List Single}
    {color : Color Single} : space.makeColor values = .ok color ↔
      values.length = space.componentCount ∧ .components values = color := by
  unfold makeColor
  split <;> simp [*]

variable [Scalar Single]

/-- The first color of a space has a component for each that the space has, or none in a pattern
space. -/
theorem length_of_initialColor (space : ColorSpace Single Double) :
    ∃ values, space.initialColor = .components values ∧
      (values.length = space.componentCount ∨ space.isPattern = true ∧ values = []) := by
  cases space with
  | pattern | patternOver => exact ⟨[], rfl, Or.inr ⟨rfl, rfl⟩⟩
  | deviceN | profile | profileOver => exact ⟨_, rfl, Or.inl List.length_replicate⟩
  | _ => exact ⟨_, rfl, Or.inl rfl⟩

end Making
end ColorSpace

/-- Whether a color is one of the space beside it: its components are as many as those of the space,
or none in a pattern space, and a pattern stands in a pattern space. -/
def Ink.Fits (ink : Ink) : Prop :=
  match ink.color with
  | .components values =>
    values.length = ink.space.componentCount ∨ ink.space.isPattern = true ∧ values = []
  | .pattern _ _ => ink.space.isPattern = true

namespace Ink

open ColorSpace Outcome

/-- The first color of a space fits it. -/
theorem fits_initial (space : ColorSpace Float32 Float) : (initial space).Fits := by
  obtain ⟨values, isInitial, fits⟩ := length_of_initialColor space
  unfold Fits initial
  rw [isInitial]
  exact fits

/-- A color that fits a space that is no pattern space has as many components as the space. -/
theorem Fits.components_of_plain {ink : Ink} (fits : ink.Fits)
    (plain : ink.space.isPattern = false) :
    ∃ values, ink.color = .components values ∧ values.length = ink.space.componentCount := by
  obtain ⟨space, color⟩ := ink
  cases color with
  | components values =>
      rcases fits with count | ⟨isPattern, -⟩
      · exact ⟨values, rfl, count⟩
      · rw [plain] at isPattern
        cases isPattern
  | pattern name underlying =>
      have isPattern : space.isPattern = true := fits
      rw [plain] at isPattern
      cases isPattern

end Ink

/-- Whether all colors of both slots fit. -/
def Inks.Fit (inks : Inks) : Prop :=
  ∀ slot, (inks.get slot).Fits

namespace GraphicsState

open ColorSpace Outcome Relation

variable {state after : GraphicsState}

/-- The colors of a state that operations, and spaces that are selected, lead to from the first. -/
inductive Reachable : GraphicsState → Prop
  /-- The first state. -/
  | start : Reachable default
  /-- The state after an operation. -/
  | apply {state after : GraphicsState} (scope : Scope) (operator : Operator)
      (operands : List Object) (reachable : Reachable state)
      (applied : state.apply scope operator operands = .ok after) : Reachable after
  /-- The state in which a space was selected in a slot, with its first color. -/
  | select {state : GraphicsState} (slot : Slot) (space : ColorSpace Float32 Float)
      (reachable : Reachable state) : Reachable (state.setInk slot (.initial space))

/-- A color that is made of operands fits the space. -/
theorem fits_plainColor {space : ColorSpace Float32 Float} {keyword : String}
    {operands : List Object} {color : Color Float32}
    (isColor : plainColor space keyword operands = .ok color) : Ink.Fits ⟨space, color⟩ := by
  obtain ⟨values, -, made⟩ := bind_eq_ok.1 isColor
  obtain ⟨fits, rfl⟩ := makeColor_eq_ok.1 made
  exact Or.inl fits

/-- A color of a device space that is made of operands fits. -/
theorem fits_deviceInk {space : ColorSpace Float32 Float} {keyword : String}
    {operands : List Object} {ink : Ink} (isInk : deviceInk space keyword operands = .ok ink) :
    ink.Fits := by
  simp only [deviceInk, bind_eq_ok, pure_eq_ok] at isInk
  obtain ⟨-, -, color, isColor, rfl⟩ := isInk
  exact fits_plainColor isColor

/-- An ink that an operator sets fits, if that before it does. -/
theorem fits_inkAfter {scope : Scope} {ink changed : Ink} {operator : Operator}
    {operands : List Object} (fits : ink.Fits)
    (sets : inkAfter scope ink operator operands = .ok changed) : changed.Fits := by
  cases operator with
  | setSpace slot =>
      simp only [inkAfter, bind_eq_ok, pure_eq_ok] at sets
      obtain ⟨space, -, rfl⟩ := sets
      exact Ink.fits_initial space
  | setColor slot =>
      simp only [inkAfter, bind_eq_ok, pure_eq_ok] at sets
      obtain ⟨color, isColor, rfl⟩ := sets
      exact fits_plainColor isColor
  | setPatternColor slot =>
      simp only [inkAfter] at sets
      split at sets
      case isTrue isPattern =>
        simp only [bind_eq_ok, pure_eq_ok] at sets
        obtain ⟨color, selected, rfl⟩ := sets
        obtain ⟨name, underlying, rfl, -⟩ := exists_pattern_of_patternColor selected
        exact isPattern
      case isFalse =>
        simp only [bind_eq_ok, pure_eq_ok] at sets
        obtain ⟨color, isColor, rfl⟩ := sets
        exact fits_plainColor isColor
  | setGray slot | setRgb slot | setCmyk slot => exact fits_deviceInk sets
  | _ =>
      obtain rfl := Except.ok.inj sets
      exact fits

/-- Whether the current colors fit, and all that are saved. -/
def Fits (state : GraphicsState) : Prop :=
  ∀ inks ∈ state.current :: state.saved, inks.Fit

/-- Colors fit when one of them is replaced by one that does. -/
theorem Fits.setInk (fits : state.Fits) (slot : Slot) {ink : Ink} (inkFits : ink.Fits) :
    (state.setInk slot ink).Fits := by
  intro inks isThere
  rcases List.mem_cons.1 isThere with rfl | isSaved
  · intro other
    have currentFits := fits state.current List.mem_cons_self other
    cases slot <;> cases other <;> assumption
  · exact fits inks (List.mem_cons_of_mem _ isSaved)

/-- Colors that fit do so when they are saved and restored. -/
theorem Fits.restore (fits : state.Fits) : state.restore.Fits := by
  obtain ⟨current, saved⟩ := state
  cases saved with
  | nil => exact fits
  | cons last others => exact fun inks isThere => fits inks (List.mem_cons_of_mem _ isThere)

/-- After an operation the colors fit if those before it do. -/
theorem Fits.apply (fits : state.Fits) {scope : Scope} {operator : Operator}
    {operands : List Object} (applied : state.apply scope operator operands = .ok after) :
    after.Fits := by
  have followed : ScopedOperation.follow state ⟨scope, operator, operands⟩ = .ok after := applied
  cases ScopedOperation.moves_of_follow followed with
  | save =>
      intro inks isThere
      rcases List.mem_cons.1 isThere with rfl | isSaved
      · exact fits _ List.mem_cons_self
      · exact fits inks isSaved
  | restore => exact fits.restore
  | set slot ink _ sets =>
      exact fits.setInk slot (fits_inkAfter (fits _ List.mem_cons_self slot) sets)
  | stay => exact fits

/-- All colors of a state that can be reached fit. -/
theorem Reachable.allFit (reachable : Reachable state) : state.Fits := by
  induction reachable with
  | start =>
      intro inks isThere
      obtain rfl := List.mem_singleton.1 isThere
      exact fun slot => by cases slot <;> exact Ink.fits_initial .deviceGray
  | apply _ _ _ _ applied inductionHypothesis => exact inductionHypothesis.apply applied
  | select slot space _ inductionHypothesis =>
      exact inductionHypothesis.setInk slot (Ink.fits_initial space)

/-- In a state that can be reached all colors fit, the current ones and the saved ones.  In a space
that is no pattern space a color therefore is made of as many components as the space has; if it
cannot be seen for the number of components, these are handed on to a space that lacks some. -/
theorem Reachable.fits_and_unfitting_within (reachable : Reachable state) :
    ∀ inks ∈ state.current :: state.saved, ∀ slot,
      (inks.get slot).Fits ∧
      ((inks.get slot).space.isPattern = false →
        ∃ values, (inks.get slot).color = .components values ∧
          values.length = (inks.get slot).space.componentCount ∧
          ((inks.get slot).space.colorToRgb (inks.get slot).color =
              .error (.mismatch .fittingColor) →
            ∃ inner handed, TransGen HandsOn ((inks.get slot).space, values) (inner, handed) ∧
              handed.length ≠ inner.componentCount)) := by
  intro inks isThere slot
  have fits : (inks.get slot).Fits := reachable.allFit inks isThere slot
  generalize inks.get slot = ink at fits
  refine ⟨fits, fun plain => ?_⟩
  obtain ⟨values, isComponents, count⟩ := fits.components_of_plain plain
  refine ⟨values, isComponents, count, fun unfitting => ?_⟩
  rw [isComponents] at unfitting
  obtain ⟨inner, handed, reached, lacks⟩ := exists_handsOn_of_unfitting unfitting
  refine ⟨inner, handed, ?_, lacks⟩
  -- The space itself has as many components, so it is none that lacks some.
  rcases reflTransGen_iff_eq_or_transGen.1 reached with same | within
  · obtain ⟨rfl, rfl⟩ := Prod.mk.inj same
    exact absurd count lacks
  · exact within

/-- A profile with three components over a space with four, selected for areas over saved colors. -/
def profiledInks : GraphicsState :=
  (default : GraphicsState).save.setInk .fill (.initial (.profileOver 3 .deviceCmyk .null))

/-- The three components of the profile fit it, and are refused by the space that it names. -/
theorem Reachable.fits_and_unfitting_within_profile :
    Reachable profiledInks ∧ (profiledInks.ink .fill).Fits ∧
    ∃ values, (profiledInks.ink .fill).color = .components values ∧
      ∃ inner handed,
        TransGen HandsOn ((profiledInks.ink .fill).space, values) (inner, handed) ∧
          handed.length ≠ inner.componentCount := by
  have reachable : Reachable profiledInks :=
    .select .fill _ (.apply ⟨default, default⟩ .saveState [] .start rfl)
  obtain ⟨fits, plainly⟩ :=
    Reachable.fits_and_unfitting_within reachable profiledInks.current List.mem_cons_self .fill
  obtain ⟨values, isComponents, -, unfitting⟩ := plainly rfl
  exact ⟨reachable, fits, values, isComponents, unfitting rfl⟩

end GraphicsState
end Monochrome
