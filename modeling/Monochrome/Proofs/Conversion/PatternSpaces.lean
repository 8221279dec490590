import Mathlib.Tactic.SplitIfs
import Monochrome.Proofs.Conversion.Replay
import Monochrome.Proofs.Resources.Replacing

/-!
# Pattern spaces become gray

After a stream was converted, the pattern spaces that it selected by name are put over gray, one
after the other.  A name that holds a pattern space then holds a settled one: a pattern space
without a space below it, or one over gray.  The exception is a name whose place the converter
remembers although what stands there is not settled.
-/

namespace Monochrome

/-- Whether an object stands for the name of patterns. -/
def Document.NamesPattern (document : Document) (object : Object) : Prop :=
  ∃ location bytes, document.resolveWithId object = .ok (location, .name bytes) ∧
    Text.ofBytes bytes = "Pattern"

/-- A value that is written as a pattern space. -/
inductive Document.WritesPattern (document : Document) : Object → Prop
  /-- The name of patterns. -/
  | name (bytes : Bytes) (isPattern : Text.ofBytes bytes = "Pattern") :
      WritesPattern document (.name bytes)
  /-- An array that begins with the name of patterns. -/
  | array (first : Object) (rest : List Object) (isPattern : document.NamesPattern first) :
      WritesPattern document (.array (first :: rest))

/-- A pattern space over gray as it is stored. -/
def grayPatternSpace : Object :=
  .array [.named "Pattern", .named "DeviceGray"]

/-- Whether an object is the pattern space over gray, as it is stored. -/
def Object.isGrayPatternSpace : Object → Bool
  | .array [.name first, .name second] =>
    first = Bytes.ascii "Pattern" ∧ second = Bytes.ascii "DeviceGray"
  | _ => false

/-- Only the pattern space over gray is seen to be it. -/
theorem Object.isGrayPatternSpace_iff {object : Object} :
    object.isGrayPatternSpace = true ↔ object = grayPatternSpace := by
  constructor
  · intro isGray
    unfold isGrayPatternSpace at isGray
    split at isGray
    · obtain ⟨rfl, rfl⟩ := of_decide_eq_true isGray
      rfl
    · contradiction
  · rintro rfl
    rfl

/-- A value that is a pattern space whatever else the document holds. -/
inductive Document.SettlesPattern (document : Document) : Object → Prop
  /-- The name of patterns. -/
  | name (bytes : Bytes) (isPattern : Text.ofBytes bytes = "Pattern") :
      SettlesPattern document (.name bytes)
  /-- The name of patterns alone in an array. -/
  | alone (first : Object) (isPattern : document.NamesPattern first) :
      SettlesPattern document (.array [first])
  /-- A pattern space over gray. -/
  | gray : SettlesPattern document grayPatternSpace

namespace ColorSpace

variable {document : Document}

/-- A value that stands for itself is read as a color space by its form. -/
theorem readWithin_value {depth : Nat} {object : Object} (isValue : object.isReference = false) :
    readWithin document (depth + 1) object =
      match object with
      | .name bytes =>
        match ofName? (Text.ofBytes bytes) with
        | some space => .ok space
        | none => .error (.undefined .colorSpace (Text.ofBytes bytes))
      | .array items => readArray document (readWithin document depth) items
      | _ => .error (.mismatch .colorSpace) := by
  rw [readWithin, Document.resolve_of_value isValue]
  cases object <;> rfl

/-- An array that begins with the name of patterns is a pattern space, over the next item if there
is one. -/
theorem readArray_pattern {first : Object} (rest : List Object)
    (inner : Object → Outcome (ColorSpace Float32 Float))
    (isPattern : document.NamesPattern first) :
    readArray document inner (first :: rest) =
      if rest = [] then .ok .pattern
      else do return .patternOver (← inner (← element document "Pattern" (first :: rest) 1)) := by
  obtain ⟨location, bytes, resolved, spelled⟩ := isPattern
  cases rest <;>
    simp [readArray, Document.resolve, resolved, Object.asText, Object.text?, spelled, ofName?,
      pure, Except.pure, bind, Except.bind]

/-- A value that is written as a pattern space is read as one over another space, or is settled. -/
theorem read_of_writesPattern {value : Object} {space : ColorSpace Float32 Float}
    (writes : document.WritesPattern value) (found : read document value = .ok space) :
    (∃ underlying, space = .patternOver underlying) ∨
      (document.SettlesPattern value ∧ space = .pattern) := by
  unfold read at found
  cases budget : NumericFunction.readingBudget document value with
  | zero => simp [budget, readWithin] at found
  | succ depth =>
      rw [budget] at found
      cases writes with
      | name bytes isPattern =>
          rw [readWithin_value rfl] at found
          simp only [isPattern, ofName?, Except.ok.injEq] at found
          exact Or.inr ⟨.name bytes isPattern, found.symm⟩
      | array first rest isPattern =>
          rw [readWithin_value rfl] at found
          simp only [readArray_pattern rest _ isPattern] at found
          split at found
          · rename_i empty
            subst empty
            exact Or.inr ⟨.alone first isPattern, (Except.ok.inj found).symm⟩
          · simp only [Outcome.bind_eq_ok, Outcome.pure_eq_ok] at found
            obtain ⟨_, _, underlying, _, rfl⟩ := found
            exact Or.inl ⟨underlying, rfl⟩

/-- The name of gray is read as gray. -/
theorem readWithin_deviceGray (document : Document) (depth : Nat) :
    readWithin document (depth + 1) (.named "DeviceGray") = .ok .deviceGray := by
  have spelled : Text.ofBytes (Bytes.ascii "DeviceGray") = "DeviceGray" :=
    Text.ofBytes_ascii (by decide)
  rw [readWithin_value rfl]
  simp [Object.named, spelled, ofName?]

/-- The first item of a pattern space over gray names patterns. -/
theorem namesPattern_named : document.NamesPattern (.named "Pattern") :=
  ⟨none, Bytes.ascii "Pattern", Document.followChain_of_value rfl, Text.ofBytes_ascii (by decide)⟩

/-- A pattern space over gray is read as it is stored. -/
theorem read_grayPatternSpace (document : Document) :
    read document grayPatternSpace = .ok (.patternOver .deviceGray) := by
  have budget : NumericFunction.readingBudget document grayPatternSpace =
      2 ^ 62 + document.size + 1 + 1 + 1 := rfl
  have gray : element document "Pattern" [.named "Pattern", .named "DeviceGray"] 1 =
      .ok (.named "DeviceGray") := rfl
  rw [read, budget, grayPatternSpace, readWithin_value rfl]
  simp only [readArray_pattern _ _ namesPattern_named, gray]
  simp [readWithin_deviceGray, pure, Except.pure, bind, Except.bind]

/-- A settled value is read as a pattern space, over gray if over another space at all. -/
theorem read_of_settlesPattern {value : Object} (settles : document.SettlesPattern value) :
    read document value = .ok .pattern ∨ read document value = .ok (.patternOver .deviceGray) := by
  cases settles with
  | name bytes isPattern =>
      refine Or.inl ?_
      have budget : NumericFunction.readingBudget document (.name bytes) =
          2 ^ 62 + document.size + 1 := rfl
      rw [read, budget, readWithin_value rfl]
      simp [isPattern, ofName?]
  | alone first isPattern =>
      refine Or.inl ?_
      have budget : NumericFunction.readingBudget document (.array [first]) =
          2 ^ 62 + document.size + Object.sizeOfItems [first] + 1 := rfl
      rw [read, budget, readWithin_value rfl]
      simp [readArray_pattern [] _ isPattern]
  | gray => exact Or.inr (read_grayPatternSpace document)

/-- Only an array is read as a pattern space over another one. -/
theorem eq_array_of_read {value : Object} {underlying : ColorSpace Float32 Float}
    (isValue : value.isReference = false)
    (found : read document value = .ok (.patternOver underlying)) :
    ∃ items, value = .array items := by
  unfold read at found
  cases budget : NumericFunction.readingBudget document value with
  | zero => simp [budget, readWithin] at found
  | succ depth =>
      rw [budget, readWithin_value isValue] at found
      cases value with
      | array items => exact ⟨items, rfl⟩
      | name bytes =>
          dsimp only at found
          split at found
          · rename_i space known
            obtain rfl := Except.ok.inj found
            rw [Conversion.eq_pattern_of_ofName? known rfl] at known
            simp [ofName?] at known
          · simp at found
      | _ => simp at found

end ColorSpace

namespace Scope

variable {scope changed : Scope} {name other : String}

/-- Whether the resource with a name is written as a pattern space. -/
def HoldsPattern (scope : Scope) (name : String) : Prop :=
  ∃ entry, scope.lookup? .colorSpace name = .ok (some entry) ∧
    scope.document.WritesPattern entry.value

/-- Whether the resource with a name is a settled pattern space. -/
def HoldsSettled (scope : Scope) (name : String) : Prop :=
  ∃ entry, scope.lookup? .colorSpace name = .ok (some entry) ∧
    scope.document.SettlesPattern entry.value

/-- The name of a settled pattern space stands for a pattern space, over gray if over another space
at all. -/
theorem HoldsSettled.colorSpace (settled : scope.HoldsSettled name) :
    scope.colorSpace name = .ok .pattern ∨
      scope.colorSpace name = .ok (.patternOver .deviceGray) := by
  obtain ⟨entry, found, settles⟩ := settled
  simpa [Scope.colorSpace, found, bind, Except.bind] using ColorSpace.read_of_settlesPattern settles

/-- A settled pattern space is read as a pattern space. -/
theorem HoldsSettled.readsPattern (settled : scope.HoldsSettled name) :
    scope.ReadsPattern name := by
  rcases settled.colorSpace with read | read
  · exact ⟨_, read, rfl⟩
  · exact ⟨_, read, rfl⟩

/-- What is written as a pattern space is no dictionary. -/
theorem isDictionary_of_writesPattern {document : Document} {value : Object}
    (writes : document.WritesPattern value) : value.isDictionary = false := by
  cases writes <;> rfl

/-- What settles as a pattern space is written as one. -/
theorem writesPattern_of_settlesPattern {document : Document} {value : Object}
    (settles : document.SettlesPattern value) : document.WritesPattern value := by
  cases settles with
  | name bytes isPattern => exact .name bytes isPattern
  | alone first isPattern => exact .array first [] isPattern
  | gray => exact .array _ _ ColorSpace.namesPattern_named

/-- A space that is a pattern space over another one stands in an array of the resources. -/
theorem lookup?_of_colorSpace {underlying : ColorSpace Float32 Float}
    (found : scope.colorSpace name = .ok (.patternOver underlying)) :
    ∃ entry, scope.lookup? .colorSpace name = .ok (some entry) ∧
      ∃ items, entry.value = .array items := by
  simp only [colorSpace, Outcome.bind_eq_ok] at found
  obtain ⟨entry, atEntry, found⟩ := found
  cases entry with
  | none =>
      dsimp only at found
      split at found
      · rename_i space known
        obtain rfl := Outcome.pure_eq_ok.1 found
        rw [Conversion.eq_pattern_of_ofName? known rfl] at known
        simp [ColorSpace.ofName?] at known
      · simp [Outcome.throw_eq_ok] at found
  | some entry =>
      obtain ⟨_, _, _, _, _, resolved⟩ := lookup?_eq_some.1 atEntry
      exact ⟨entry, atEntry,
        ColorSpace.eq_array_of_read (Document.isReference_of_resolveWithId resolved) found⟩

section Replaced

variable {entry : Entry} {items : List Object}

/-- An object that names patterns still does after an array was made gray. -/
theorem namesPattern_replace (done : scope.replace .colorSpace name grayPatternSpace = .ok changed)
    (found : scope.lookup? .colorSpace name = .ok (some entry))
    (isArray : entry.value = .array items) {first : Object}
    (isPattern : scope.document.NamesPattern first) : changed.document.NamesPattern first := by
  obtain ⟨location, bytes, resolved, spelled⟩ := isPattern
  refine ⟨location, bytes, ?_, spelled⟩
  rw [resolveWithId_replace done found rfl resolved rfl, valueAfter, if_neg]
  -- The name is no array, so it is not the object that was replaced.
  rintro ⟨isSome, same⟩
  obtain ⟨_, _, object, _, _, ownResolved⟩ := lookup?_eq_some.1 found
  obtain ⟨target, rfl⟩ := Option.isSome_iff_exists.1 isSome
  rw [← same] at ownResolved
  have asName := Document.find?_of_resolveWithId resolved
  have asArray := Document.find?_of_resolveWithId ownResolved
  rw [asName, isArray] at asArray
  simp at asArray

/-- What is written as a pattern space still is after an array was made gray. -/
theorem writesPattern_replace
    (done : scope.replace .colorSpace name grayPatternSpace = .ok changed)
    (found : scope.lookup? .colorSpace name = .ok (some entry))
    (isArray : entry.value = .array items) {value : Object}
    (writes : scope.document.WritesPattern value) : changed.document.WritesPattern value := by
  cases writes with
  | name bytes isPattern => exact .name bytes isPattern
  | array first rest isPattern =>
      exact .array first rest (namesPattern_replace done found isArray isPattern)

/-- What settles as a pattern space still does after an array was made gray. -/
theorem settlesPattern_replace
    (done : scope.replace .colorSpace name grayPatternSpace = .ok changed)
    (found : scope.lookup? .colorSpace name = .ok (some entry))
    (isArray : entry.value = .array items) {value : Object}
    (settles : scope.document.SettlesPattern value) : changed.document.SettlesPattern value := by
  cases settles with
  | name bytes isPattern => exact .name bytes isPattern
  | alone first isPattern =>
      exact .alone first (namesPattern_replace done found isArray isPattern)
  | gray => exact .gray

/-- After an array was made gray, another name holds what it held, or the gray pattern space if it
shares the place. -/
theorem lookup?_replaceArray
    (done : scope.replace .colorSpace name grayPatternSpace = .ok changed)
    (found : scope.lookup? .colorSpace name = .ok (some entry))
    (isArray : entry.value = .array items) {otherEntry : Entry}
    (otherFound : scope.lookup? .colorSpace other = .ok (some otherEntry))
    (notDictionary : otherEntry.value.isDictionary = false) :
    ∃ after, changed.lookup? .colorSpace other = .ok (some after) ∧
      (after.value = grayPatternSpace ∨ after.value = otherEntry.value) ∧
        (other = name ∨ (otherEntry.location.isSome ∧ otherEntry.location = entry.location) →
          after.value = grayPatternSpace) := by
  refine ⟨_, lookup?_replace done found (by rw [isArray]; rfl) rfl otherFound notDictionary,
    ?_, ?_⟩
  · unfold valueAfter
    split_ifs <;> simp
  · rintro (same | shared)
    · simp [same]
    · split_ifs
      · rfl
      · exact if_pos shared

/-- A name that holds a pattern space still does after an array was made gray. -/
theorem HoldsPattern.replace (holds : scope.HoldsPattern other)
    (done : scope.replace .colorSpace name grayPatternSpace = .ok changed)
    (found : scope.lookup? .colorSpace name = .ok (some entry))
    (isArray : entry.value = .array items) : changed.HoldsPattern other := by
  obtain ⟨otherEntry, otherFound, writes⟩ := holds
  obtain ⟨after, atOther, gray | same, _⟩ := lookup?_replaceArray done found isArray otherFound
    (isDictionary_of_writesPattern writes)
  · exact ⟨after, atOther, gray ▸ writesPattern_of_settlesPattern .gray⟩
  · exact ⟨after, atOther, same ▸ writesPattern_replace done found isArray writes⟩

/-- A name that holds a settled pattern space still does after an array was made gray. -/
theorem HoldsSettled.replace (settled : scope.HoldsSettled other)
    (done : scope.replace .colorSpace name grayPatternSpace = .ok changed)
    (found : scope.lookup? .colorSpace name = .ok (some entry))
    (isArray : entry.value = .array items) : changed.HoldsSettled other := by
  obtain ⟨otherEntry, otherFound, settles⟩ := settled
  obtain ⟨after, atOther, gray | same, _⟩ := lookup?_replaceArray done found isArray otherFound
    (isDictionary_of_writesPattern (writesPattern_of_settlesPattern settles))
  · exact ⟨after, atOther, gray ▸ .gray⟩
  · exact ⟨after, atOther, same ▸ settlesPattern_replace done found isArray settles⟩

end Replaced

end Scope

/-- Whether the converter remembers a former space for the place of a name. -/
def Scene.KnowsSpace (scene : Scene) (name : String) : Prop :=
  ∃ place, scene.scope.location? .colorSpace name = .ok (some place) ∧
    scene.converter.formerSpaces.contains place = true

/-- What holds of a named pattern space while pattern spaces become gray: it is written as one, and
settled if its place is remembered. -/
structure Scene.KeepsPattern (scene : Scene) (name : String) : Prop where
  holds : scene.scope.HoldsPattern name
  settled : scene.KnowsSpace name → scene.scope.HoldsSettled name

namespace Conversion
open Change

variable {scene after : Scene} {name other : String}

/-- Storing a pattern space over gray replaces the entry by it. -/
theorem setColorSpace_eq_ok {scope changed : Scope}
    (done : Scope.setColorSpace name (.patternOver .deviceGray) scope = .ok ⟨⟩ changed) :
    scope.replace .colorSpace name grayPatternSpace = .ok changed := by
  simp only [Scope.setColorSpace, bind_eq_ok] at done
  obtain ⟨value, middle, stored, done⟩ := done
  obtain ⟨rfl, rfl⟩ : value = grayPatternSpace ∧ middle = scope := by
    obtain ⟨rfl, rfl⟩ := EStateM.Result.ok.inj stored
    exact ⟨rfl, rfl⟩
  simp only [Scope.set, bind_eq_ok, get_eq_ok, lift_eq_ok, set_eq_ok] at done
  obtain ⟨_, _, ⟨rfl, rfl⟩, _, _, ⟨replaced, rfl⟩, rfl⟩ := done
  exact replaced

/-- A name that holds a pattern space over gray is read as one. -/
theorem colorSpace_of_gray {scope : Scope} {entry : Scope.Entry}
    (found : scope.lookup? .colorSpace name = .ok (some entry))
    (isGray : entry.value = grayPatternSpace) :
    scope.colorSpace name = .ok (.patternOver .deviceGray) := by
  refine Outcome.bind_eq_ok.2 ⟨_, found, ?_⟩
  dsimp only
  rw [isGray, ColorSpace.read_grayPatternSpace]

/-- Storing a pattern space over gray where one is stored changes nothing. -/
theorem setColorSpace_of_gray {scope : Scope} {entry : Scope.Entry}
    (found : scope.lookup? .colorSpace name = .ok (some entry))
    (isGray : entry.value = grayPatternSpace) :
    Scope.setColorSpace name (.patternOver .deviceGray) scope = .ok ⟨⟩ scope := by
  have replaced : scope.replace .colorSpace name grayPatternSpace = .ok scope :=
    isGray ▸ Scope.replace_self found
  refine bind_eq_ok.2 ⟨grayPatternSpace, scope, rfl, ?_⟩
  simp only [Scope.set, bind_eq_ok, get_eq_ok, lift_eq_ok, set_eq_ok]
  exact ⟨_, _, ⟨rfl, rfl⟩, _, _, ⟨replaced, rfl⟩, rfl⟩

/-- What making a pattern space gray does: nothing if its place is remembered, nothing if it is no
pattern space over another space, and else it is replaced, and its place remembered. -/
theorem convertPatternSpace_eq_ok (done : convertPatternSpace name scene = .ok ⟨⟩ after) :
    (after = scene ∧ scene.KnowsSpace name) ∨
      (after = scene ∧ ∃ space, scene.scope.colorSpace name = .ok space ∧
        ∀ underlying, space ≠ .patternOver underlying) ∨
      ∃ underlying location,
        scene.scope.colorSpace name = .ok (.patternOver underlying) ∧
          scene.scope.location? .colorSpace name = .ok location ∧
            scene.scope.replace .colorSpace name grayPatternSpace = .ok after.scope ∧
              ∀ place, after.converter.formerSpaces.contains place =
                (scene.converter.formerSpaces.contains place || location == some place) := by
  simp only [convertPatternSpace, bind_eq_ok, get_eq_ok, lift_eq_ok] at done
  obtain ⟨_, _, ⟨rfl, rfl⟩, location, _, ⟨atLocation, rfl⟩, done⟩ := done
  split at done
  · rename_i known
    obtain ⟨_, rfl⟩ := pure_eq_ok.1 done
    obtain ⟨place, rfl, remembered⟩ := (Option.any_eq_true _ _).1 known
    exact Or.inl ⟨rfl, place, atLocation, remembered⟩
  · simp only [bind_eq_ok, lift_eq_ok] at done
    obtain ⟨space, _, ⟨atSpace, rfl⟩, done⟩ := done
    split at done
    · rename_i underlying
      simp only [bind_eq_ok] at done
      obtain ⟨_, middle, stored, done⟩ := done
      obtain ⟨changed, inScope, rfl⟩ := within_eq_ok.1 stored
      have replaced := setColorSpace_eq_ok inScope
      refine Or.inr (Or.inr ⟨underlying, location, atSpace, atLocation, ?_⟩)
      cases location with
      | some own =>
          rw [← modify_eq_ok.1 done]
          refine ⟨replaced, fun place => ?_⟩
          by_cases same : own = place <;> simp [Table.contains, same]
      | none =>
          obtain ⟨_, rfl⟩ := pure_eq_ok.1 done
          exact ⟨replaced, by simp⟩
    · rename_i notOver
      obtain ⟨_, rfl⟩ := pure_eq_ok.1 done
      exact Or.inr (Or.inl ⟨rfl, space, atSpace, notOver⟩)

/-- While one pattern space becomes gray, a name that holds one keeps it; a name that is told
itself holds a settled one after it. -/
theorem keepsPattern_convertPatternSpace (keeps : scene.KeepsPattern other)
    (done : convertPatternSpace name scene = .ok ⟨⟩ after) :
    after.KeepsPattern other ∧
      (scene.scope.HoldsSettled other ∨ other = name → after.scope.HoldsSettled other) := by
  rcases convertPatternSpace_eq_ok done with ⟨rfl, known⟩ | ⟨rfl, space, atSpace, notOver⟩ |
    ⟨underlying, location, atSpace, atLocation, replaced, remembered⟩
  · refine ⟨keeps, ?_⟩
    rintro (settled | rfl)
    · exact settled
    · exact keeps.settled known
  · refine ⟨keeps, ?_⟩
    rintro (settled | rfl)
    · exact settled
    · obtain ⟨entry, found, writes⟩ := keeps.holds
      have read : ColorSpace.read after.scope.document entry.value = .ok space := by
        simpa [Scope.colorSpace, found, bind, Except.bind] using atSpace
      rcases ColorSpace.read_of_writesPattern writes read with ⟨underlying, isOver⟩ | ⟨settles, _⟩
      · exact absurd isOver (notOver underlying)
      · exact ⟨entry, found, settles⟩
  · obtain ⟨entry, found, items, isArray⟩ := Scope.lookup?_of_colorSpace atSpace
    obtain ⟨otherEntry, otherFound, writes⟩ := keeps.holds
    have notDictionary := Scope.isDictionary_of_writesPattern writes
    obtain ⟨later, atOther, _, gray⟩ :=
      Scope.lookup?_replaceArray replaced found isArray otherFound notDictionary
    have settledIfShared (shared : other = name ∨
        (otherEntry.location.isSome ∧ otherEntry.location = entry.location)) :
        after.scope.HoldsSettled other :=
      ⟨later, atOther, gray shared ▸ .gray⟩
    have kept (settled : scene.scope.HoldsSettled other) : after.scope.HoldsSettled other :=
      settled.replace replaced found isArray
    refine ⟨⟨keeps.holds.replace replaced found isArray, ?_⟩, ?_⟩
    · rintro ⟨place, atPlace, known⟩
      rw [Scope.location?_replace replaced found (by rw [isArray]; rfl) rfl otherFound
        notDictionary] at atPlace
      rw [remembered, Bool.or_eq_true, beq_iff_eq] at known
      rcases known with known | rfl
      · exact kept (keeps.settled ⟨place, atPlace, known⟩)
      · exact settledIfShared (Scope.eq_of_location? found otherFound atLocation atPlace)
    · rintro (settled | same)
      · exact kept settled
      · exact settledIfShared (Or.inl same)

/-- After pattern spaces became gray, every name that was told and that held one holds a settled
one. -/
theorem holdsSettled_forM {names : List String} (keeps : scene.KeepsPattern other)
    (done : names.forM convertPatternSpace scene = .ok ⟨⟩ after)
    (told : scene.scope.HoldsSettled other ∨ other ∈ names) : after.scope.HoldsSettled other := by
  induction names generalizing scene with
  | nil =>
      obtain ⟨_, rfl⟩ := pure_eq_ok.1 (show (pure ⟨⟩ : Change Scene PUnit) scene = _ from done)
      simpa using told
  | cons first rest inductionHypothesis =>
      obtain ⟨middle, atFirst, atRest⟩ := forM_cons_eq_ok.1 done
      obtain ⟨keepsMiddle, settled⟩ := keepsPattern_convertPatternSpace keeps atFirst
      refine inductionHypothesis keepsMiddle atRest ?_
      rcases told with already | told
      · exact Or.inl (settled (Or.inl already))
      · rcases List.mem_cons.1 told with same | later
        · exact Or.inl (settled (Or.inr same))
        · exact Or.inr later

end Conversion
end Monochrome
