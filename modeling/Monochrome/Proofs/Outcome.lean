import Mathlib.Data.List.Forall2
import Monochrome.Content.Operation

/-!
# Laws of outcomes

A reading that succeeds is taken apart into the readings that it is made of.
-/

namespace Monochrome
namespace Outcome

variable {α β : Type} {value : β}

/-- Readings in sequence succeed if the first does and the others do with its value. -/
theorem bind_eq_ok {first : Outcome α} {next : α → Outcome β} :
    (first >>= next) = .ok value ↔ ∃ found, first = .ok found ∧ next found = .ok value := by
  show Except.bind first next = _ ↔ _
  cases first <;> simp [Except.bind]

/-- A value alone succeeds. -/
theorem pure_eq_ok {result : β} : (pure result : Outcome β) = .ok value ↔ result = value := by
  show Except.ok result = _ ↔ _
  simp

/-- A failure is no success. -/
theorem throw_eq_ok {fault : Fault} : (throw fault : Outcome β) = .ok value ↔ False := by
  show Except.error fault = _ ↔ _
  simp

/-- A changed value comes from a reading that succeeds. -/
theorem map_eq_ok {first : Outcome α} {change : α → β} :
    (change <$> first) = .ok value ↔ ∃ found, first = .ok found ∧ change found = value := by
  show Except.map change first = _ ↔ _
  cases first <;> simp [Except.map]

/-- Readings of the elements of a list succeed if each does. -/
theorem mapM_eq_ok {read : α → Outcome β} {list : List α} {values : List β} :
    list.mapM read = .ok values ↔
      List.Forall₂ (fun element value => read element = .ok value) list values := by
  induction list generalizing values with
  | nil => rw [List.mapM_nil, pure_eq_ok, List.forall₂_nil_left_iff, eq_comm]
  | cons first rest inductionHypothesis =>
      simp only [List.mapM_cons, bind_eq_ok, pure_eq_ok, inductionHypothesis]
      constructor
      · rintro ⟨found, atFirst, others, atRest, rfl⟩
        exact .cons atFirst atRest
      · rintro (_ | ⟨atFirst, atRest⟩)
        exact ⟨_, atFirst, _, atRest, rfl⟩

/-- The reading of a value that may be missing succeeds if it does where there is one. -/
theorem mapOption_eq_ok {read : α → Outcome β} {option : Option α} {result : Option β} :
    option.mapM read = .ok result ↔
      Option.Rel (fun element value => read element = .ok value) option result := by
  cases option with
  | none =>
      rw [Option.mapM_none, pure_eq_ok]
      constructor
      · rintro rfl
        exact .none
      · rintro ⟨⟩
        rfl
  | some element =>
      rw [Option.mapM_some, map_eq_ok]
      constructor
      · rintro ⟨value, isRead, rfl⟩
        exact .some isRead
      · rintro ⟨isRead⟩
        exact ⟨_, isRead, rfl⟩

/-- The reading of a value that may be missing gives one if there is one. -/
theorem isSome_of_mapOption {read : α → Outcome β} {option : Option α} {result : Option β}
    (done : option.mapM read = .ok result) : result.isSome = option.isSome := by
  cases mapOption_eq_ok.1 done <;> rfl

/-- What readings of the elements of a list give is read from one of them. -/
theorem exists_of_mapM {read : α → Outcome β} {list : List α} {values : List β}
    (done : list.mapM read = .ok values) (isValue : value ∈ values) :
    ∃ element ∈ list, read element = .ok value := by
  have each := mapM_eq_ok.1 done
  induction each with
  | nil => cases isValue
  | cons atFirst rest inductionHypothesis =>
      rcases List.mem_cons.1 isValue with rfl | later
      · exact ⟨_, List.mem_cons_self, atFirst⟩
      · obtain ⟨element, isElement, found⟩ := inductionHypothesis (mapM_eq_ok.2 rest) later
        exact ⟨element, List.mem_cons_of_mem _ isElement, found⟩

variable {fault : Fault}

/-- Readings in sequence fail if the first does, or the others do with its value. -/
theorem bind_eq_error {first : Outcome α} {next : α → Outcome β} :
    (first >>= next) = .error fault ↔
      first = .error fault ∨ ∃ found, first = .ok found ∧ next found = .error fault := by
  show Except.bind first next = _ ↔ _
  cases first <;> simp [Except.bind]

/-- Readings in sequence do not fail in a way in which none of them fails. -/
theorem bind_ne_error {first : Outcome α} {next : α → Outcome β} (settles : first ≠ .error fault)
    (rest : ∀ found, next found ≠ .error fault) : (first >>= next) ≠ .error fault := by
  rw [ne_eq, bind_eq_error]
  rintro (failed | ⟨found, _, failed⟩)
  · exact settles failed
  · exact rest found failed

/-- Readings in sequence fail in a way in which the first does not after what other ones, which
begin alike, read before, if the later readings do. -/
theorem bind_eq_error_iff {γ : Type} {first : Outcome α} {next : α → Outcome β}
    {other : α → Outcome γ} {holds : γ → Prop} (settles : first ≠ .error fault)
    (rest : ∀ found, next found = .error fault ↔
      ∃ before, other found = .ok before ∧ holds before) :
    (first >>= next) = .error fault ↔ ∃ before, (first >>= other) = .ok before ∧ holds before := by
  simp only [bind_eq_error, settles, false_or, rest, bind_eq_ok]
  constructor
  · rintro ⟨found, atFirst, before, atRest, held⟩
    exact ⟨before, ⟨found, atFirst, atRest⟩, held⟩
  · rintro ⟨before, ⟨found, atFirst, atRest⟩, held⟩
    exact ⟨found, atFirst, before, atRest, held⟩

/-- A value alone does not fail. -/
theorem pure_ne_error {result : β} : (pure result : Outcome β) ≠ .error fault := by
  rintro ⟨⟩

/-- A failure fails as it tells. -/
theorem throw_eq_error {other : Fault} :
    (throw other : Outcome β) = .error fault ↔ other = fault := by
  show Except.error other = _ ↔ _
  simp

/-- A changed value fails if the reading does. -/
theorem map_eq_error {first : Outcome α} {change : α → β} :
    (change <$> first) = .error fault ↔ first = .error fault := by
  show Except.map change first = _ ↔ _
  cases first <;> simp [Except.map]

/-- Readings of the elements of a list fail if one of them does and those before succeed. -/
theorem mapM_eq_error {read : α → Outcome β} {list : List α} :
    list.mapM read = .error fault ↔ ∃ before element after, list = before ++ element :: after ∧
      (∀ earlier ∈ before, ∃ value, read earlier = .ok value) ∧ read element = .error fault := by
  induction list with
  | nil => simp [pure_ne_error]
  | cons first rest inductionHypothesis =>
      simp only [List.mapM_cons, bind_eq_error, pure_ne_error, and_false, exists_false, or_false]
      constructor
      · rintro (failed | ⟨value, succeeded, failed⟩)
        · exact ⟨[], first, rest, rfl, by simp, failed⟩
        · obtain ⟨before, element, after, rfl, succeeds, failed⟩ := inductionHypothesis.1 failed
          refine ⟨first :: before, element, after, rfl, ?_, failed⟩
          exact List.forall_mem_cons.mpr ⟨⟨value, succeeded⟩, succeeds⟩
      · rintro ⟨_ | ⟨earlier, before⟩, element, after, same, succeeds, failed⟩
        · obtain ⟨rfl, rfl⟩ := List.cons.inj same
          exact Or.inl failed
        · obtain ⟨rfl, rfl⟩ := List.cons.inj same
          obtain ⟨⟨value, succeeded⟩, succeeds⟩ := List.forall_mem_cons.mp succeeds
          refine Or.inr ⟨value, succeeded, ?_⟩
          exact inductionHypothesis.2 ⟨before, element, after, rfl, succeeds, failed⟩

/-- Readings of the elements of a list fail as one of them does, if those before succeed or fail in
the same way. -/
theorem mapM_eq_error_of {read : α → Outcome β} {before after : List α} {element : α}
    (each : ∀ earlier ∈ before, read earlier = .error fault ∨ ∃ value, read earlier = .ok value)
    (failed : read element = .error fault) :
    (before ++ element :: after).mapM read = .error fault := by
  induction before with
  | nil => exact mapM_eq_error.mpr ⟨[], element, after, rfl, by simp, failed⟩
  | cons first rest inductionHypothesis =>
      obtain ⟨atFirst, atRest⟩ := List.forall_mem_cons.mp each
      rw [List.cons_append, List.mapM_cons, bind_eq_error]
      refine atFirst.imp_right fun ⟨value, succeeded⟩ => ⟨value, succeeded, ?_⟩
      exact bind_eq_error.mpr (Or.inl (inductionHypothesis atRest))

/-- Readings of the elements of a list do not fail in a way in which none of them fails. -/
theorem mapM_ne_error {read : α → Outcome β} {list : List α}
    (settles : ∀ element, read element ≠ .error fault) : list.mapM read ≠ .error fault := by
  rw [ne_eq, mapM_eq_error]
  rintro ⟨_, element, _, _, _, failed⟩
  exact settles element failed

/-- Whether a reading that succeeds does so in another way, too, and with the same value. -/
def Carries (first second : Outcome α) : Prop :=
  ∀ value, first = .ok value → second = .ok value

section Carries

/-- A reading carries over to itself. -/
theorem Carries.refl (reading : Outcome α) : Carries reading reading :=
  fun _ read => read

/-- A reading carries over to one that is the same. -/
theorem Carries.of_eq {first second : Outcome α} (same : first = second) : Carries first second :=
  same ▸ Carries.refl first

/-- Readings in sequence carry over if the first does, and the others do with its value. -/
theorem Carries.bind {first second : Outcome α} {next other : α → Outcome β}
    (carries : Carries first second)
    (rest : ∀ found, first = .ok found → Carries (next found) (other found)) :
    Carries (first >>= next) (second >>= other) := by
  intro value read
  obtain ⟨found, atFirst, atRest⟩ := bind_eq_ok.1 read
  exact bind_eq_ok.2 ⟨found, carries found atFirst, rest found atFirst value atRest⟩

/-- A changed value carries over if the reading does. -/
theorem Carries.map {first second : Outcome α} (carries : Carries first second) (change : α → β) :
    Carries (change <$> first) (change <$> second) := by
  intro value read
  obtain ⟨found, atFirst, rfl⟩ := map_eq_ok.1 read
  exact map_eq_ok.2 ⟨found, carries found atFirst, rfl⟩

/-- Readings of the elements of a list carry over if each does. -/
theorem Carries.mapM {read other : α → Outcome β} {list : List α}
    (each : ∀ element ∈ list, Carries (read element) (other element)) :
    Carries (list.mapM read) (list.mapM other) := by
  induction list with
  | nil => exact .refl _
  | cons first rest inductionHypothesis =>
      rw [List.mapM_cons, List.mapM_cons]
      refine (each first List.mem_cons_self).bind fun _ _ => ?_
      refine Carries.bind (inductionHypothesis fun element isElement => ?_) fun _ _ => .refl _
      exact each element (List.mem_cons_of_mem _ isElement)

/-- Readings that go on from one element of a list to the next carry over if each does. -/
theorem Carries.foldlM {read other : β → α → Outcome β} {list : List α} {start : β}
    (each : ∀ element ∈ list, ∀ value, Carries (read value element) (other value element)) :
    Carries (list.foldlM read start) (list.foldlM other start) := by
  induction list generalizing start with
  | nil => exact .refl _
  | cons first rest inductionHypothesis =>
      rw [List.foldlM_cons, List.foldlM_cons]
      refine (each first List.mem_cons_self start).bind fun _ _ => inductionHypothesis ?_
      exact fun element isElement => each element (List.mem_cons_of_mem _ isElement)

/-- A reading that is optional carries over if it does when it is done. -/
theorem Carries.mapOption {read other : α → Outcome β} {optional : Option α}
    (each : ∀ element ∈ optional, Carries (read element) (other element)) :
    Carries (optional.mapM read) (optional.mapM other) := by
  cases optional with
  | none => exact .refl _
  | some element => exact (each element rfl).map _

end Carries

end Outcome

namespace Operands

variable {keyword : String} {operands : List Object}

/-- The count of operands that are accepted. -/
theorem expectCount_eq_ok {count : Nat} {done : Unit} :
    expectCount keyword operands count = .ok done ↔ operands.length = count := by
  unfold expectCount
  split <;> simp_all

/-- Operands that are read as numbers are numbers. -/
theorem numbers_eq_ok {values : List Float32} :
    numbers keyword operands = .ok values ↔
      List.Forall₂ (fun operand value => operand.number? = some value) operands values := by
  rw [numbers, Outcome.mapM_eq_ok]
  refine iff_of_eq (congrArg (List.Forall₂ · operands values) ?_)
  funext operand value
  cases operand.number? <;> simp

/-- Operands that are read as numbers are numbers, each of them. -/
theorem exists_number_of_numbers {values : List Float32} {operand : Object}
    (read : numbers keyword operands = .ok values) (isOperand : operand ∈ operands) :
    ∃ value, operand.number? = some value := by
  have each := numbers_eq_ok.1 read
  induction each with
  | nil => cases isOperand
  | cons number rest inductionHypothesis =>
      rcases List.mem_cons.1 isOperand with rfl | later
      · exact ⟨_, number⟩
      · exact inductionHypothesis (numbers_eq_ok.2 rest) later

/-- An operand that is read as a name is a name. -/
theorem nameOf_eq_ok {operand : Object} {name : String} :
    nameOf keyword operand = .ok name ↔ operand.text? = some name := by
  unfold nameOf
  cases operand.text? <;> simp

/-- The only operand is read as a name if it is one. -/
theorem singleName_eq_ok {name : String} :
    singleName keyword operands = .ok name ↔
      ∃ operand, operands = [operand] ∧ operand.text? = some name := by
  simp only [singleName, Outcome.bind_eq_ok, expectCount_eq_ok]
  constructor
  · rintro ⟨_, single, named⟩
    obtain ⟨operand, rfl⟩ := List.length_eq_one_iff.1 single
    exact ⟨operand, rfl, nameOf_eq_ok.1 named⟩
  · rintro ⟨operand, rfl, named⟩
    exact ⟨(), rfl, nameOf_eq_ok.2 named⟩

end Operands
end Monochrome
