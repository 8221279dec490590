import Monochrome.ColorSpace.Storage
import Monochrome.Proofs.NumericFunction.Ending
import Monochrome.Proofs.Text.Utf8

/-!
# Color spaces that are read to the end

The space inside a space stands anywhere in the document, so spaces can come back to themselves, and
the function of an ink can come back to itself.  Reading a space ends exactly if neither happens,
and then it is nested no deeper than there are objects.
-/

namespace Monochrome
namespace ColorSpace

open Outcome

variable {α : Type} {document : Document}

/-- An object that is read inside a space, with the function that is read after it, if the space has
one. -/
structure Inside where
  space : Object
  tint : Outcome (Option Object)

/-- What is read inside the space of an array after what stands before it. -/
def insideOfArray (document : Document) (items : List Object) : Outcome (Option Inside) := do
  let some first := items.head? | throw (.mismatch .colorSpace)
  let family ← (← document.resolve first).asText
  let element := element document family items
  let device? : Option (ColorSpace Float32 Float) :=
    if items.length = 1 then ofName? family else none
  match device? with
  | some _ => return none
  | none =>
    match family with
    | "ICCBased" =>
      let stream ← (← element 1).asStream
      let _ ← readProfileCount document stream.entries
      return (stream.entries.get? "Alternate").map fun alternate => ⟨alternate, .ok none⟩
    | "Indexed" | "I" | "Pattern" => return some ⟨← element 1, .ok none⟩
    | "Separation" =>
      let _ ← (← element 1).asText
      return some ⟨← element 2, some <$> element 3⟩
    | "DeviceN" =>
      let _ ← readColorants document (← element 1)
      return some ⟨← element 2, some <$> element 3⟩
    | _ => return none

/-- What is read inside a space after what stands before it. -/
def insideOf (document : Document) (object : Object) : Outcome (Option Inside) := do
  match ← document.resolve object with
  | .array items => insideOfArray document items
  | _ => return none

/-- Whether reading a space reads another object as the space inside it. -/
def Nests (document : Document) (object part : Object) : Prop :=
  ∃ tint, insideOf document object = .ok (some ⟨part, tint⟩)

/-- Whether the space inside a space is read with success, and then a function whose parts go in a
circle. -/
def StopsAtTint (document : Document) (object : Object) : Prop :=
  ∃ part function depth space, insideOf document object = .ok (some ⟨part, .ok (some function)⟩) ∧
    readWithin document depth part = .ok space ∧ NumericFunction.GoesRound document function

/-- Whether the spaces inside a space, and theirs, go in a circle, or come to a function that
does. -/
def GoesRound (document : Document) (object : Object) : Prop :=
  ComesToCircle (Nests document) (StopsAtTint document) object

/-- Whether reading a space ends: within some depth, and within every greater one, it has one and
the same result, and does not pass that depth. -/
def Ends (document : Document) (object : Object) : Prop :=
  ∃ depth result, result ≠ .error .endless ∧
    ∀ more, depth ≤ more → readWithin document more object = result

theorem element_ne_endless {family : String} {items : List Object} {index : Nat} :
    element document family items index ≠ .error .endless := by
  unfold element
  split <;> simp

theorem readLab_ne_endless {entries : Dictionary} {source : Object} :
    readLab document entries source ≠ .error .endless := by
  refine bind_ne_error Document.numbersOr_ne_endless fun _ => ?_
  exact bind_ne_error Document.numbersOr_ne_endless fun _ => pure_ne_error

theorem readProfileCount_ne_endless {entries : Dictionary} :
    readProfileCount document entries ≠ .error .endless := by
  refine bind_ne_error Document.integerEntry?_ne_endless fun count => ?_
  cases count with
  | none => simp [throw_eq_error]
  | some count =>
      dsimp only
      split <;> simp [pure_ne_error, throw_eq_error]

theorem readPalette_ne_endless {object : Object} :
    readPalette document object ≠ .error .endless := by
  cases object <;> simp [readPalette]

theorem readColorants_ne_endless {object : Object} :
    readColorants document object ≠ .error .endless := by
  cases object with
  | array items =>
      exact mapM_ne_error fun item => bind_ne_error Document.resolve_ne_endless fun _ => by simp
  | _ => simp [readColorants]

/-- Whether reading what is inside a space does not end, given how spaces are read. -/
def Inside.Endless (document : Document)
    (inner : Object → Outcome (ColorSpace Float32 Float)) (inside : Inside) : Prop :=
  inner inside.space = .error .endless ∨
    ∃ space function, inner inside.space = .ok space ∧ inside.tint = .ok (some function) ∧
      NumericFunction.read document function = .error .endless

section Arrays

variable {inner : Object → Outcome (ColorSpace Float32 Float)}

/-- Reading a space that has one inside it, and no function after it, does not end if reading that
one does not. -/
theorem bind_inner_eq_endless_iff {part : Object} {next : ColorSpace Float32 Float → Outcome α}
    (settles : ∀ space, next space ≠ .error .endless) :
    (inner part >>= next) = .error .endless ↔
      ∃ inside?, (pure (some ⟨part, .ok none⟩) : Outcome (Option Inside)) = .ok inside? ∧
        ∃ inside ∈ inside?, inside.Endless document inner := by
  simp [pure_eq_ok, bind_eq_error, settles, Inside.Endless]

/-- Reading a space that has one inside it, and a function after it, does not end if reading one of
these does not. -/
theorem bind_tinted_eq_endless_iff {part : Object} {tint : Outcome Object}
    {next : ColorSpace Float32 Float → NumericFunction Float32 Float → Outcome α}
    (tintSettles : tint ≠ .error .endless)
    (settles : ∀ space function, next space function ≠ .error .endless) :
    (do
      let space ← inner part
      let function ← NumericFunction.read document (← tint)
      next space function) = .error .endless ↔
      ∃ inside?, (pure (some ⟨part, some <$> tint⟩) : Outcome (Option Inside)) = .ok inside? ∧
        ∃ inside ∈ inside?, inside.Endless document inner := by
  simp [pure_eq_ok, bind_eq_error, settles, tintSettles, Inside.Endless, map_eq_ok]

/-- Reading the space of an array does not end if reading what is inside it does not. -/
theorem readArray_eq_endless_iff {items : List Object} :
    readArray document inner items = .error .endless ↔
      ∃ inside?, insideOfArray document items = .ok inside? ∧
        ∃ inside ∈ inside?, inside.Endless document inner := by
  unfold readArray insideOfArray
  cases items.head? with
  | none => simp [throw_eq_error, throw_eq_ok]
  | some first =>
  refine bind_eq_error_iff Document.resolve_ne_endless fun value => ?_
  refine bind_eq_error_iff Object.asText_ne_endless fun family => ?_
  dsimp only
  cases (if items.length = 1 then ofName? family else none : Option (ColorSpace Float32 Float)) with
  | some space => simp [pure_ne_error, pure_eq_ok]
  | none =>
  dsimp only
  split
  case h_1 | h_2 => simp [pure_ne_error, pure_eq_ok]
  case h_3 =>
    refine iff_of_false ?_ (by simp [pure_eq_ok])
    refine bind_ne_error element_ne_endless fun _ => ?_
    exact bind_ne_error Object.asDictionary_ne_endless fun _ => readLab_ne_endless
  case h_4 =>
    refine bind_eq_error_iff element_ne_endless fun profile => ?_
    refine bind_eq_error_iff Object.asStream_ne_endless fun stream => ?_
    refine bind_eq_error_iff readProfileCount_ne_endless fun count => ?_
    cases stream.entries.get? "Alternate" with
    | none => simp [pure_ne_error, pure_eq_ok]
    | some alternate => exact bind_inner_eq_endless_iff fun _ => pure_ne_error
  case h_5 | h_6 =>
    refine bind_eq_error_iff element_ne_endless fun base =>
      bind_inner_eq_endless_iff fun space => ?_
    refine bind_ne_error element_ne_endless fun last => ?_
    split
    · refine bind_ne_error element_ne_endless fun _ => ?_
      exact bind_ne_error readPalette_ne_endless fun _ => pure_ne_error
    · simp [throw_eq_error]
  case h_7 =>
    refine bind_eq_error_iff element_ne_endless fun underlying => ?_
    exact bind_inner_eq_endless_iff fun space => pure_ne_error
  case h_8 =>
    refine bind_eq_error_iff element_ne_endless fun named => ?_
    refine bind_eq_error_iff Object.asText_ne_endless fun colorant => ?_
    refine bind_eq_error_iff element_ne_endless fun alternate => ?_
    exact bind_tinted_eq_endless_iff element_ne_endless fun _ _ => pure_ne_error
  case h_9 =>
    refine bind_eq_error_iff element_ne_endless fun named => ?_
    refine bind_eq_error_iff readColorants_ne_endless fun colorants => ?_
    refine bind_eq_error_iff element_ne_endless fun alternate => ?_
    exact bind_tinted_eq_endless_iff element_ne_endless fun _ _ => pure_ne_error
  case h_10 =>
    refine iff_of_false (by simp [throw_eq_error]) ?_
    rintro ⟨inside?, done, inside, isInside, _⟩
    split at done <;> simp_all [pure_eq_ok]

end Arrays

/-- Reading a space fails for its depth if reading what is inside it does. -/
theorem readWithin_eq_endless_iff {depth : Nat} {object : Object} :
    readWithin document (depth + 1) object = .error .endless ↔
      ∃ inside?, insideOf document object = .ok inside? ∧
        ∃ inside ∈ inside?, inside.Endless document (readWithin document depth) := by
  refine bind_eq_error_iff Document.resolve_ne_endless fun value => ?_
  cases value with
  | array items => exact readArray_eq_endless_iff
  | name bytes =>
      dsimp only
      split <;> simp [pure_ne_error, throw_eq_error, pure_eq_ok]
  | _ => simp [throw_eq_error, pure_eq_ok]

/-- Reading the space of an array is the same if the spaces inside it are read the same, unless
reading them does not end. -/
theorem readArray_upTo {inner other : Object → Outcome (ColorSpace Float32 Float)}
    (same : ∀ object, Limited.UpTo .endless (inner object) (other object)) (items : List Object) :
    Limited.UpTo .endless (readArray document inner items) (readArray document other items) := by
  unfold readArray
  cases items.head? with
  | none => exact .refl _
  | some first =>
  refine .bind (.refl _) fun value => .bind (.refl _) fun family => ?_
  dsimp only
  split
  · exact .refl _
  · split
    case h_4 =>
      refine .bind (.refl _) fun profile => .bind (.refl _) fun stream => ?_
      refine .bind (.refl _) fun count => ?_
      cases stream.entries.get? "Alternate" with
      | none => exact .refl _
      | some alternate => exact .bind (same alternate) fun _ => .refl _
    case h_5 | h_6 | h_7 => exact .bind (.refl _) fun part => .bind (same part) fun _ => .refl _
    case h_8 | h_9 =>
      refine .bind (.refl _) fun named => .bind (.refl _) fun colorant => ?_
      exact .bind (.refl _) fun alternate => .bind (same alternate) fun _ => .refl _
    all_goals exact .refl _

/-- Reading a space is the same within every greater depth, unless it passes the smaller one. -/
theorem readWithin_upTo {depth more : Nat} (deeper : depth ≤ more) (object : Object) :
    Limited.UpTo .endless (readWithin document depth object) (readWithin document more object) := by
  induction depth generalizing more object with
  | zero => exact fun settles => absurd rfl settles
  | succ depth inductionHypothesis =>
      obtain ⟨more, rfl⟩ := Nat.exists_eq_add_of_le' deeper
      rw [← Nat.add_assoc]
      unfold readWithin
      refine .bind (.refl _) fun value => ?_
      cases value with
      | array items => exact readArray_upTo (inductionHypothesis (Nat.le_add_left _ _)) items
      | _ => exact .refl _

/-- Reading a space calls itself for the space inside it, and fails for its depth only if this call
does or reading a function does not end. -/
theorem isRecursion_readWithin (document : Document) :
    IsRecursion .endless (readWithin document) (Nests document) (StopsAtTint document) where
  none _ := rfl
  on depth object passed := by
    obtain ⟨_, isInside, ⟨part, tint⟩, rfl, failed | ⟨space, function, succeeded, rfl, failed⟩⟩ :=
      readWithin_eq_endless_iff.mp passed
    · exact Or.inl ⟨part, ⟨tint, isInside⟩, failed⟩
    · refine Or.inr ⟨part, function, depth, space, isInside, succeeded, ?_⟩
      exact not_not.mp
        (mt ((NumericFunction.readWithin_tfae document function).out 3 2).mp (by simpa))
  back depth object part := by
    rintro ⟨tint, isInside⟩ failed
    exact readWithin_eq_endless_iff.mpr ⟨_, isInside, _, rfl, Or.inl failed⟩
  stop depth object := by
    rintro ⟨part, function, other, space, isInside, succeeded, around⟩
    cases depth with
    | zero => rfl
    | succ depth =>
        refine readWithin_eq_endless_iff.mpr ⟨_, isInside, _, rfl, ?_⟩
        refine (Limited.eq_limit_or_ok (fun deeper => readWithin_upTo deeper part) succeeded
          depth).imp_right fun succeeded => ⟨space, function, succeeded, rfl, ?_⟩
        exact not_not.mp
          (mt ((NumericFunction.readWithin_tfae document function).out 2 3).mp (by simpa))
  more _ _ object deeper := readWithin_upTo deeper object

/-- An element of an array among the objects of a document is among them. -/
theorem mem_objectsWith_of_element {whole value : Object} {family : String} {items : List Object}
    {index : Nat} (isArray : .array items ∈ document.objectsWith whole)
    (found : element document family items index = .ok value) :
    value ∈ document.objectsWith whole := by
  unfold element at found
  split at found
  · rename_i item isItem
    exact Document.mem_objectsWith_of_resolve
      (Document.mem_objectsWith_of_item isArray (List.mem_of_getElem? isItem)) found
  · cases found

/-- The space inside a space among the objects of a document is among them. -/
theorem mem_objectsWith_of_nests {whole object part : Object}
    (isObject : object ∈ document.objectsWith whole) (nests : Nests document object part) :
    part ∈ document.objectsWith whole := by
  obtain ⟨tint, isInside⟩ := nests
  simp only [insideOf, bind_eq_ok] at isInside
  obtain ⟨value, resolves, isInside⟩ := isInside
  cases value with
  | array items =>
      have isArray := Document.mem_objectsWith_of_resolve isObject resolves
      unfold insideOfArray at isInside
      cases atHead : items.head? with
      | none => simp [atHead, throw_eq_ok] at isInside
      | some first =>
      simp only [atHead, bind_eq_ok] at isInside
      obtain ⟨_, _, family, _, isInside⟩ := isInside
      split at isInside
      · simp [pure_eq_ok] at isInside
      · split at isInside
        case h_1 =>
          simp only [bind_eq_ok, pure_eq_ok, Option.map_eq_some_iff] at isInside
          obtain ⟨profile, isElement, stream, isStream, _, _, alternate, isEntry, same⟩ := isInside
          obtain rfl : alternate = part := congrArg Inside.space same
          have hasEntries : profile.entries? = some stream.entries := by
            cases profile <;> simp [Object.asStream] at isStream
            exact isStream ▸ rfl
          exact Document.mem_objectsWith_of_entry (mem_objectsWith_of_element isArray isElement)
            hasEntries isEntry
        case h_2 | h_3 | h_4 =>
          simp only [bind_eq_ok, pure_eq_ok, Option.some.injEq] at isInside
          obtain ⟨inner, isElement, same⟩ := isInside
          obtain rfl : inner = part := congrArg Inside.space same
          exact mem_objectsWith_of_element isArray isElement
        case h_5 | h_6 =>
          simp only [bind_eq_ok, pure_eq_ok, Option.some.injEq] at isInside
          obtain ⟨_, _, _, _, inner, isElement, same⟩ := isInside
          obtain rfl : inner = part := congrArg Inside.space same
          exact mem_objectsWith_of_element isArray isElement
        case h_7 => simp [pure_eq_ok] at isInside
  | _ => simp [pure_eq_ok] at isInside

/-- Reading a space ends exactly if the spaces inside it go in no circle and come to no function
that does; it is nested no deeper than there are objects. -/
theorem readWithin_tfae (document : Document) (object : Object) :
    [Ends document object,
      ∀ depth, document.size + object.size ≤ depth →
        readWithin document depth object ≠ .error .endless,
      read document object ≠ .error .endless,
      ¬ GoesRound document object].TFAE := by
  rw [← Document.length_objectsWith]
  refine (isRecursion_readWithin document).ends_tfae
    (fun _ isObject _ nests => mem_objectsWith_of_nests isObject nests)
    (List.mem_append_left _ object.mem_parts_self) ?_
  rw [Document.length_objectsWith, NumericFunction.readingBudget]
  omega

/-- A space of patterns over itself goes in a circle. -/
theorem goesRound_of_patternOver_self {target : ObjectId}
    (found : document.find? target = some (.array [.named "Pattern", .reference target])) :
    GoesRound document (.reference target) := by
  have spelled : Text.ofBytes (Bytes.ascii "Pattern") = "Pattern" := Text.ofBytes_ascii (by decide)
  have resolves : document.resolve (.reference target) =
      .ok (.array [.named "Pattern", .reference target]) := by
    simp [Document.resolve, Document.resolveWithId, Document.chainLimit, Document.followChain,
      found]
  have isInside : insideOfArray document [.named "Pattern", .reference target] =
      .ok (some ⟨.array [.named "Pattern", .reference target], .ok none⟩) := by
    have family : document.resolve (.named "Pattern") = .ok (.named "Pattern") := rfl
    have name : (Object.named "Pattern").asText = .ok "Pattern" := by
      rw [Object.named, Object.asText, Object.text?, spelled]
    simp only [insideOfArray, List.head?_cons, family, name, Limited.ok_bind, element]
    simp [resolves]
  have nests {object : Object}
      (resolves : document.resolve object = .ok (.array [.named "Pattern", .reference target])) :
      Nests document object (.array [.named "Pattern", .reference target]) :=
    ⟨.ok none, by rw [insideOf, resolves, Limited.ok_bind]; exact isInside⟩
  exact ⟨_, .single (nests resolves), Or.inl (.single (nests rfl))⟩

/-- Reading spaces and functions ends exactly if nothing that is read inside them goes in a
circle. -/
theorem readings_end_iff (document : Document) (object : Object) :
    [Ends document object,
      ∀ depth, document.size + object.size ≤ depth →
        readWithin document depth object ≠ .error .endless,
      read document object ≠ .error .endless,
      ¬ GoesRound document object].TFAE ∧
    [NumericFunction.Ends document object,
      ∀ depth, document.size + object.size ≤ depth →
        NumericFunction.readWithin document depth object ≠ .error .endless,
      NumericFunction.read document object ≠ .error .endless,
      ¬ NumericFunction.GoesRound document object].TFAE :=
  ⟨readWithin_tfae document object, NumericFunction.readWithin_tfae document object⟩

end ColorSpace
end Monochrome
