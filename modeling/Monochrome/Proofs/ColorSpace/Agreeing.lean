import Monochrome.Proofs.ColorSpace.Ending
import Monochrome.Proofs.Object.Agreeing

/-!
# Color spaces in documents that agree

A function and a color space are read from one object, and from what it leads to.  What is read with
success in one document is read in every other one that agrees with it on these objects, however many
other objects either of them has.
-/

namespace Monochrome

open Document Outcome

variable {kind : Object → Prop} {document other : Document} (leads : document.Leads kind other)
variable {object : Object}

/-- A required entry is of the kind of the dictionary. -/
theorem Dictionary.carries_require_bind {α : Type} {entries : Dictionary} {key : String}
    {next following : Object → Outcome α} (holds : Agree.Holds kind entries)
    (rest : ∀ value, kind value → Carries (next value) (following value)) :
    Carries (entries.require key >>= next) (entries.require key >>= following) :=
  (Carries.refl _).bind fun value found =>
    rest value (holds _ _ (Dictionary.require_eq_ok.1 found))

namespace NumericFunction

include leads

/-- A table of samples is the same where objects lead to the same. -/
theorem carries_readTable {stream : Stream} {range : Option (List Float32)}
    (holds : Agree.Holds kind stream.entries) :
    Carries (readTable document stream range) (readTable other stream range) := by
  refine Dictionary.carries_require_bind holds fun size isKind => ?_
  refine (carries_numbers leads isKind).bind fun size _ => ?_
  refine (carries_integerEntry leads holds).bind fun bits _ => ?_
  refine (carries_numbersOr leads holds).bind fun encode _ => ?_
  split
  · rename_i decode isEntry
    refine (carries_numbers leads (holds _ _ isEntry)).bind fun decode _ => ?_
    exact (Stream.carries_content leads holds).bind fun _ _ => .refl _
  all_goals
    refine (Carries.refl _).bind fun decode _ => ?_
    exact (Stream.carries_content leads holds).bind fun _ _ => .refl _

/-- A program is the same where objects lead to the same. -/
theorem carries_readProgram {stream : Stream} (holds : Agree.Holds kind stream.entries) :
    Carries (readProgram document stream) (readProgram other stream) :=
  (Stream.carries_content leads holds).bind fun _ _ => .refl _

/-- The dictionary of a function is of its kind, and so is that of its stream. -/
theorem holds_of_readForm {entries : Dictionary} {stream : Option Stream} (isKind : kind object)
    (read : readForm object = .ok (entries, stream)) :
    Agree.Holds kind entries ∧ ∀ data ∈ stream, Agree.Holds kind data.entries := by
  cases object with
  | dictionary others =>
      obtain ⟨rfl, rfl⟩ := Prod.mk.inj (Except.ok.inj read)
      exact ⟨holds_of_entries? leads isKind rfl, by rintro _ ⟨⟩⟩
  | stream others data =>
      obtain ⟨rfl, rfl⟩ := Prod.mk.inj (Except.ok.inj read)
      have holds := holds_of_entries? leads isKind rfl
      exact ⟨holds, by rintro _ ⟨⟩; exact holds⟩
  | _ => cases read

/-- A function is the same where objects lead to the same, as deep as it is read. -/
theorem carries_readWithin {depth : Nat} (isKind : kind object) :
    Carries (readWithin document depth object) (readWithin other depth object) := by
  induction depth generalizing object with
  | zero => exact .refl _
  | succ depth inductionHypothesis =>
      refine carries_resolve_bind leads isKind fun value isKind => ?_
      refine (Carries.refl _).bind fun form isForm => ?_
      obtain ⟨entries, stream⟩ := form
      obtain ⟨holds, holdsData⟩ := holds_of_readForm leads isKind isForm
      refine (carries_integerEntry leads holds).bind fun type _ => ?_
      cases type with
      | none => exact .refl _
      | some type =>
          refine Dictionary.carries_require_bind holds fun domain isKind => ?_
          refine (carries_numbers leads isKind).bind fun domain _ => ?_
          refine Carries.bind (.mapOption fun range isEntry =>
            carries_numbers leads (holds _ _ isEntry)) fun range _ => ?_
          dsimp only
          split
          · refine (carries_numbersOr leads holds).bind fun start _ => ?_
            refine (carries_numbersOr leads holds).bind fun finish _ => ?_
            refine Dictionary.carries_require_bind holds fun exponent isKind => ?_
            exact carries_resolve_bind leads isKind fun _ _ => .refl _
          · split
            · refine Dictionary.carries_require_bind holds fun functions isKind => ?_
              refine carries_resolve_bind leads isKind fun functions isKind => ?_
              cases functions with
              | array items =>
                  refine Carries.bind (.mapM fun item isItem =>
                    inductionHypothesis (leads.item _ _ isKind isItem)) fun parts _ => ?_
                  refine Dictionary.carries_require_bind holds fun limits isKind => ?_
                  refine (carries_numbers leads isKind).bind fun limits _ => ?_
                  refine Dictionary.carries_require_bind holds fun encode isKind => ?_
                  exact (carries_numbers leads isKind).bind fun encode _ => .refl _
              | _ => exact .refl _
            · cases stream with
              | none => exact .refl _
              | some stream =>
                  dsimp only
                  split
                  · exact (carries_readTable leads (holdsData stream rfl)).bind fun _ _ => .refl _
                  · split
                    · exact (carries_readProgram leads (holdsData stream rfl)).bind
                        fun _ _ => .refl _
                    · exact .refl _

omit leads in
/-- A function that is read within some depth is read. -/
theorem read_of_readWithin {depth : Nat} {function : NumericFunction Float32 Float}
    (found : readWithin document depth object = .ok function) :
    read document object = .ok function := by
  have ends : Ends document object :=
    ⟨depth, .ok function, by simp, fun more deeper => by
      rw [readWithin_upTo deeper object (by simp [found]), found]⟩
  have settles := ((readWithin_tfae document object).out 0 2).1 ends
  exact (Limited.eq_limit_or_ok (fun deeper => readWithin_upTo deeper object) found _).resolve_left
    settles

/-- A function that is read in a document is read in every one where objects lead to the same. -/
theorem carries_read (isKind : kind object) : Carries (read document object) (read other object) :=
  fun _ found => read_of_readWithin (carries_readWithin leads isKind _ found)

end NumericFunction

namespace ColorSpace

include leads

/-- An element of the array of a family is the same where objects lead to the same. -/
theorem carries_element_bind {α : Type} {family : String} {items : List Object} {index : Nat}
    {next following : Object → Outcome α} (isKind : kind (.array items))
    (rest : ∀ value, kind value → Carries (next value) (following value)) :
    Carries (element document family items index >>= next)
      (element other family items index >>= following) := by
  unfold element
  cases isItem : items[index]? with
  | none => exact .refl _
  | some item =>
      exact carries_resolve_bind leads (leads.item _ _ isKind (List.mem_of_getElem? isItem)) rest

/-- A space of lightness is the same where objects lead to the same. -/
theorem carries_readLab {entries : Dictionary} {source : Object}
    (holds : Agree.Holds kind entries) :
    Carries (readLab document entries source) (readLab other entries source) :=
  (carries_numbersOr leads holds).bind fun _ _ =>
    (carries_numbersOr leads holds).bind fun _ _ => .refl _

/-- The number of components of a profile is the same where objects lead to the same. -/
theorem carries_readProfileCount {entries : Dictionary} (holds : Agree.Holds kind entries) :
    Carries (readProfileCount document entries) (readProfileCount other entries) :=
  (carries_integerEntry leads holds).bind fun _ _ => .refl _

/-- A palette is the same where objects lead to the same. -/
theorem carries_readPalette (isKind : kind object) :
    Carries (readPalette document object) (readPalette other object) := by
  cases object with
  | stream entries data =>
      exact Stream.carries_content leads (holds_of_entries? leads isKind rfl)
  | _ => exact .refl _

/-- The names of inks are the same where objects lead to the same. -/
theorem carries_readColorants (isKind : kind object) :
    Carries (readColorants document object) (readColorants other object) := by
  cases object with
  | array items =>
      refine .mapM fun item isItem => ?_
      exact carries_resolve_bind leads (leads.item _ _ isKind isItem) fun _ _ => .refl _
  | _ => exact .refl _

/-- The space of an array is the same where objects lead to the same, if the spaces inside it are. -/
theorem carries_readArray {inner following : Object → Outcome (ColorSpace Float32 Float)}
    {items : List Object} (isKind : kind (.array items))
    (each : ∀ object, kind object → Carries (inner object) (following object)) :
    Carries (readArray document inner items) (readArray other following items) := by
  have isElement {α : Type} {family : String} {index : Nat} {next after : Object → Outcome α}
      (rest : ∀ value, kind value → Carries (next value) (after value)) :
      Carries (element document family items index >>= next)
        (element other family items index >>= after) :=
    carries_element_bind leads isKind rest
  unfold readArray
  cases isFirst : items.head? with
  | none => exact .refl _
  | some first =>
  refine carries_resolve_bind leads (leads.item _ _ isKind (List.mem_of_head? isFirst))
    fun value _ => (Carries.refl _).bind fun family _ => ?_
  dsimp only
  split
  · exact .refl _
  · split
    case h_1 | h_2 => exact .refl _
    case h_3 =>
      refine isElement fun dictionary isKind => (Carries.refl _).bind fun entries found => ?_
      refine carries_readLab leads (holds_of_entries? leads isKind ?_)
      cases dictionary <;> simp [Object.asDictionary] at found
      exact found ▸ rfl
    case h_4 =>
      refine isElement fun profile isKind => (Carries.refl _).bind fun stream found => ?_
      have holds : Agree.Holds kind stream.entries := by
        refine holds_of_entries? leads isKind ?_
        cases profile <;> simp [Object.asStream] at found
        exact found ▸ rfl
      refine (carries_readProfileCount leads holds).bind fun count _ => ?_
      cases isAlternate : stream.entries.get? "Alternate" with
      | none => exact .refl _
      | some alternate =>
          exact (each alternate (holds _ _ isAlternate)).bind fun _ _ => .refl _
    case h_5 | h_6 =>
      refine isElement fun base isKind => (each base isKind).bind fun base _ => ?_
      refine isElement fun last _ => ?_
      split
      · refine isElement fun palette isKind => ?_
        exact (carries_readPalette leads isKind).bind fun _ _ => .refl _
      · exact .refl _
    case h_7 =>
      exact isElement fun underlying isKind => (each underlying isKind).bind fun _ _ => .refl _
    case h_8 =>
      refine isElement fun colorant _ => (Carries.refl _).bind fun colorant _ => ?_
      refine isElement fun alternate isKind => (each alternate isKind).bind fun alternate _ => ?_
      refine isElement fun tint isKind => ?_
      exact (NumericFunction.carries_read leads isKind).bind fun _ _ => .refl _
    case h_9 =>
      refine isElement fun names isKind => ?_
      refine (carries_readColorants leads isKind).bind fun colorants _ => ?_
      refine isElement fun alternate isKind => (each alternate isKind).bind fun alternate _ => ?_
      refine isElement fun tint isKind => ?_
      exact (NumericFunction.carries_read leads isKind).bind fun _ _ => .refl _
    case h_10 => exact .refl _

/-- A space is the same where objects lead to the same, as deep as it is read. -/
theorem carries_readWithin {depth : Nat} (isKind : kind object) :
    Carries (readWithin document depth object) (readWithin other depth object) := by
  induction depth generalizing object with
  | zero => exact .refl _
  | succ depth inductionHypothesis =>
      refine carries_resolve_bind leads isKind fun value isKind => ?_
      cases value with
      | array items => exact carries_readArray leads isKind fun _ => inductionHypothesis
      | _ => exact .refl _

omit leads in
/-- A space that is read within some depth is read. -/
theorem read_of_readWithin {depth : Nat} {space : ColorSpace Float32 Float}
    (found : readWithin document depth object = .ok space) :
    read document object = .ok space := by
  have ends : Ends document object :=
    ⟨depth, .ok space, by simp, fun more deeper => by
      rw [readWithin_upTo deeper object (by simp [found]), found]⟩
  have settles := ((readWithin_tfae document object).out 0 2).1 ends
  exact (Limited.eq_limit_or_ok (fun deeper => readWithin_upTo deeper object) found _).resolve_left
    settles

/-- A space that is read in a document is read in every one where objects lead to the same. -/
theorem carries_read (isKind : kind object) : Carries (read document object) (read other object) :=
  fun _ found => read_of_readWithin (carries_readWithin leads isKind _ found)

end ColorSpace
end Monochrome
