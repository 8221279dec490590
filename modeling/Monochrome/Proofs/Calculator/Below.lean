import Monochrome.Calculator.Run
import Monochrome.Proofs.Limits

/-!
# Operands below

A program that ends on some operands takes no operand from below them.  With more operands there it ends
as well, leaves these as they are, and leaves on them what it left before.  This holds for every operator,
also for those that are refused unless there are enough operands: where there are enough, more do not matter.
-/

namespace Monochrome
namespace Calculator

variable {Real α β : Type}

/-- Whether a step succeeds if another one does, with what a change makes of its result. -/
def Step.Follows (change : α → α) (step other : Step α) : Prop :=
  ∀ value, step = .ok value → other = .ok (change value)

namespace Step.Follows

variable {change : α → α}

/-- A step that succeeds is followed by one that gives the changed result. -/
theorem ok {value : α} : Follows change (.ok value) (.ok (change value)) := by
  rintro _ ⟨⟩
  rfl

/-- Every step follows one that fails. -/
theorem error {fault : FunctionFault} {other : Step α} : Follows change (.error fault) other :=
  nofun

/-- A step follows itself without a change. -/
theorem refl (step : Step α) : Follows id step step :=
  fun _ succeeds => succeeds

/-- Steps in sequence follow others if each of them does, after what the first one gave. -/
theorem bind {after : β → β} {first other : Step α} {next nextOther : α → Step β}
    (follows : Follows change first other)
    (rest : ∀ value, first = .ok value → Follows after (next value) (nextOther (change value))) :
    Follows after (first >>= next) (other >>= nextOther) := by
  cases first with
  | ok value =>
      rw [follows value rfl]
      exact rest value rfl
  | error fault => exact error

end Step.Follows

open Step

/-! ## Taking operands -/

/-- What is taken from the top, with operands that are below the rest. -/
def above (below : Stack Real) (taken : α × Stack Real) : α × Stack Real :=
  (taken.1, taken.2 ++ below)

/-- Whether a step that takes something from the top of the operands finds it there as well if there are
more operands below. -/
def TakesAbove (take : Stack Real → Step (α × Stack Real)) : Prop :=
  ∀ stack below, Follows (above below) (take stack) (take (stack ++ below))

/-- Whether a step on operands does the same with more operands below, and leaves these as they are. -/
def StaysAbove (step : Stack Real → Step (Stack Real)) : Prop :=
  ∀ stack below, Follows (· ++ below) (step stack) (step (stack ++ below))

/-- The topmost operand is the same with more operands below. -/
theorem takesAbove_pop : TakesAbove (pop : Stack Real → Step (Operand Real × Stack Real)) := by
  intro stack below
  cases stack with
  | nil => exact .error
  | cons top rest => exact .ok

/-- A topmost truth value is the same with more operands below. -/
theorem takesAbove_popBoolean : TakesAbove (popBoolean : Stack Real → Step (Bool × Stack Real)) := by
  intro stack below
  refine (takesAbove_pop stack below).bind fun ⟨top, rest⟩ _ => ?_
  cases top with
  | boolean value => exact .ok
  | integer | real | procedure => exact .error

/-- A topmost procedure is the same with more operands below. -/
theorem takesAbove_popProcedure :
    TakesAbove (popProcedure : Stack Real → Step (Program Real × Stack Real)) := by
  intro stack below
  refine (takesAbove_pop stack below).bind fun ⟨top, rest⟩ _ => ?_
  cases top with
  | procedure body => exact .ok
  | integer | real | boolean => exact .error

/-- A number of operands that a stack has is no more than its height. -/
theorem le_length_of_countWithin {operator : Operator} {count : Int64} {stack : Stack Real} {number : Nat}
    (within : countWithin operator count stack = .ok number) :
    number ≤ stack.length ∧ (number : Int) = count.toInt := by
  rw [countWithin] at within
  split at within
  · cases within
  · rename_i inside
    obtain rfl := Except.ok.inj within
    have nonnegative : ¬count.toInt < 0 := fun negative =>
      inside (by simp [Int64.lt_iff_toInt_lt, negative])
    have atMost : ¬(stack.length : Int) < count.toInt := fun greater => inside (by simp [greater])
    omega

/-- A number of operands that a stack has is found with more operands below. -/
theorem follows_countWithin (operator : Operator) (count : Int64) (stack below : Stack Real) :
    Follows id (countWithin operator count stack) (countWithin operator count (stack ++ below)) := by
  intro number within
  have inside := le_length_of_countWithin within
  rw [countWithin] at within ⊢
  split at within
  · cases within
  · rename_i notOutside
    rw [if_neg]
    · exact within
    · simp only [Bool.or_eq_true, decide_eq_true_eq, not_or, List.length_append] at notOutside ⊢
      exact ⟨notOutside.1, by omega⟩

/-- Operands are rotated in the same way with more operands below. -/
theorem rotate_append {count : Nat} {stack : Stack Real} (inside : count ≤ stack.length) (places : Int)
    (below : Stack Real) : rotate count places (stack ++ below) = rotate count places stack ++ below := by
  rw [rotate, rotate, List.take_append_of_le_length inside, List.drop_append_of_le_length inside,
    List.append_assoc]

/-- A combination of the two topmost operands does not depend on the operands below. -/
theorem staysAbove_bitwise (operator : Operator) (onBooleans : Bool → Bool → Bool)
    (onIntegers : Int64 → Int64 → Int64) :
    StaysAbove (bitwise operator onBooleans onIntegers : Stack Real → Step (Stack Real)) := by
  intro stack below
  refine (takesAbove_pop stack below).bind fun ⟨second, rest⟩ _ => ?_
  refine (takesAbove_pop rest below).bind fun ⟨first, rest⟩ _ => ?_
  dsimp only [above]
  split
  · exact .ok
  · exact .ok
  · exact .error

section Operators

variable [Scalar Real]

/-- A topmost number is the same with more operands below. -/
theorem takesAbove_popNumber : TakesAbove (popNumber : Stack Real → Step (Real × Stack Real)) := by
  intro stack below
  refine (takesAbove_pop stack below).bind fun ⟨top, rest⟩ _ => ?_
  exact (Follows.refl top.number).bind fun _ _ => .ok

/-- A topmost integer is the same with more operands below. -/
theorem takesAbove_popInteger : TakesAbove (popInteger : Stack Real → Step (Int64 × Stack Real)) := by
  intro stack below
  refine (takesAbove_pop stack below).bind fun ⟨top, rest⟩ _ => ?_
  cases top with
  | integer value => exact .ok
  | real value =>
      dsimp only [above]
      split
      · exact .ok
      · exact .error
  | boolean | procedure => exact .error

/-! ## Operators -/

/-- A number in the place of the topmost operand does not depend on the operands below. -/
theorem staysAbove_unary (onInteger : Int64 → Int64) (onReal : Real → Real) :
    StaysAbove (unary onInteger onReal) := by
  intro stack below
  refine (takesAbove_pop stack below).bind fun ⟨top, rest⟩ _ => ?_
  cases top with
  | integer value => exact .ok
  | real | boolean | procedure => exact (Follows.refl _).bind fun _ _ => .ok

/-- A real number in the place of the topmost number does not depend on the operands below. -/
theorem staysAbove_realUnary (onReal : Real → Real) : StaysAbove (realUnary onReal) := by
  intro stack below
  exact (takesAbove_popNumber stack below).bind fun _ _ => .ok

/-- A number in the place of the two topmost ones does not depend on the operands below. -/
theorem staysAbove_arithmetic (onIntegers : Int64 → Int64 → Int64) (onReals : Real → Real → Real) :
    StaysAbove (arithmetic onIntegers onReals) := by
  intro stack below
  refine (takesAbove_pop stack below).bind fun ⟨second, rest⟩ _ => ?_
  refine (takesAbove_pop rest below).bind fun ⟨first, rest⟩ _ => ?_
  dsimp only [above]
  split
  · exact .ok
  · exact (Follows.refl _).bind fun _ _ => (Follows.refl _).bind fun _ _ => .ok

/-- An integer in the place of the two topmost ones does not depend on the operands below. -/
theorem staysAbove_division (onIntegers : Int64 → Int64 → Int64) :
    StaysAbove (division onIntegers : Stack Real → Step (Stack Real)) := by
  intro stack below
  refine (takesAbove_popInteger stack below).bind fun ⟨second, rest⟩ _ => ?_
  refine (takesAbove_popInteger rest below).bind fun ⟨first, rest⟩ _ => ?_
  dsimp only [above]
  split
  · exact .error
  · exact .ok

/-- The truth of a relation between the two topmost numbers does not depend on the operands below. -/
theorem staysAbove_relation (holds : Real → Real → Bool) : StaysAbove (relation holds) := by
  intro stack below
  refine (takesAbove_pop stack below).bind fun ⟨second, rest⟩ _ => ?_
  refine (takesAbove_pop rest below).bind fun ⟨first, rest⟩ _ => ?_
  exact (Follows.refl _).bind fun _ _ => (Follows.refl _).bind fun _ _ => .ok

/-- Whether the two topmost operands are equal does not depend on the operands below. -/
theorem staysAbove_equality (wanted : Bool) :
    StaysAbove (equality wanted : Stack Real → Step (Stack Real)) := by
  intro stack below
  match stack with
  | [] => exact .error
  | [top] => cases top <;> exact .error
  | .boolean _ :: .boolean _ :: _ => exact .ok
  | .integer _ :: _ :: _ | .real _ :: _ :: _ | .procedure _ :: _ :: _ | .boolean _ :: .integer _ :: _
  | .boolean _ :: .real _ :: _ | .boolean _ :: .procedure _ :: _ =>
      exact staysAbove_relation _ _ below

variable [Analysis Real]

/-- An operator does the same with more operands below if the procedures do that it runs. -/
theorem staysAbove_apply {call : Program Real → Stack Real → Step (Stack Real)}
    (calls : ∀ body, StaysAbove (call body)) (operator : Operator) :
    StaysAbove (apply call operator) := by
  intro stack below
  cases operator with
  | abs | neg | ceiling | floor | round | truncate => exact staysAbove_unary _ _ stack below
  | add | sub | mul => exact staysAbove_arithmetic _ _ stack below
  | quotient | remainder => exact staysAbove_division _ stack below
  | cos => exact staysAbove_realUnary (fun angle => Analysis.cosine (radians angle)) stack below
  | sin => exact staysAbove_realUnary (fun angle => Analysis.sine (radians angle)) stack below
  | ln | log | sqrt | toReal => exact staysAbove_realUnary _ stack below
  | equal | unequal => exact staysAbove_equality _ stack below
  | atLeast | greater | atMost | less => exact staysAbove_relation _ stack below
  | conjunction | disjunction | exclusion => exact staysAbove_bitwise _ _ _ stack below
  | truth | falsehood => exact .ok
  | div =>
      refine (takesAbove_popNumber stack below).bind fun ⟨second, rest⟩ _ => ?_
      refine (takesAbove_popNumber rest below).bind fun ⟨first, rest⟩ _ => ?_
      dsimp only [above]
      split
      · exact .error
      · exact .ok
  | atan | exp =>
      refine (takesAbove_popNumber stack below).bind fun ⟨second, rest⟩ _ => ?_
      exact (takesAbove_popNumber rest below).bind fun _ _ => .ok
  | toInteger => exact (takesAbove_popNumber stack below).bind fun _ _ => .ok
  | complement =>
      refine (takesAbove_pop stack below).bind fun ⟨top, rest⟩ _ => ?_
      cases top with
      | boolean | integer => exact .ok
      | real | procedure => exact .error
  | shift =>
      refine (takesAbove_popInteger stack below).bind fun ⟨amount, rest⟩ _ => ?_
      exact (takesAbove_popInteger rest below).bind fun _ _ => .ok
  | «when» =>
      refine (takesAbove_popProcedure stack below).bind fun ⟨body, rest⟩ _ => ?_
      refine (takesAbove_popBoolean rest below).bind fun ⟨condition, rest⟩ _ => ?_
      cases condition with
      | true => exact calls body rest below
      | false => exact .ok
  | choose =>
      refine (takesAbove_popProcedure stack below).bind fun ⟨otherwise, rest⟩ _ => ?_
      refine (takesAbove_popProcedure rest below).bind fun ⟨body, rest⟩ _ => ?_
      refine (takesAbove_popBoolean rest below).bind fun ⟨condition, rest⟩ _ => ?_
      exact calls _ rest below
  | copy =>
      refine (takesAbove_popInteger stack below).bind fun ⟨count, rest⟩ _ => ?_
      refine (follows_countWithin .copy count rest below).bind fun number within => ?_
      have inside := (le_length_of_countWithin within).1
      dsimp only [above, id]
      rw [List.take_append_of_le_length inside, ← List.append_assoc]
      exact .ok
  | duplicate => exact (takesAbove_pop stack below).bind fun _ _ => .ok
  | exchange =>
      refine (takesAbove_pop stack below).bind fun ⟨second, rest⟩ _ => ?_
      exact (takesAbove_pop rest below).bind fun _ _ => .ok
  | index =>
      refine (takesAbove_popInteger stack below).bind fun ⟨depth, rest⟩ _ => ?_
      dsimp only [above]
      split
      · exact .error
      · cases found : rest[depth.toInt.toNat]? with
        | none => exact .error
        | some operand =>
            have inside := (List.getElem?_eq_some_iff.1 found).1
            rw [List.getElem?_append_left inside, found]
            exact .ok
  | discard => exact (takesAbove_pop stack below).bind fun _ _ => .ok
  | roll =>
      refine (takesAbove_popInteger stack below).bind fun ⟨places, rest⟩ _ => ?_
      refine (takesAbove_popInteger rest below).bind fun ⟨count, rest⟩ _ => ?_
      refine (follows_countWithin .roll count rest below).bind fun number within => ?_
      dsimp only [above, id]
      rw [rotate_append (le_length_of_countWithin within).1]
      exact .ok

/-! ## Runs -/

/-- Instructions do the same with more operands below if the procedures do that they run.  The induction
is on the instructions. -/
theorem staysAbove_runWith {call : Program Real → Stack Real → Step (Stack Real)}
    (calls : ∀ body, StaysAbove (call body)) (program : Program Real) :
    StaysAbove (runWith call program) := by
  intro stack below
  induction program generalizing stack with
  | nil => exact .ok
  | cons instruction rest inductionHypothesis =>
      cases instruction with
      | integer | real | procedure => exact inductionHypothesis (_ :: stack)
      | operator operator =>
          have applies := staysAbove_apply calls operator stack below
          cases applied : apply call operator stack with
          | error fault =>
              rw [runWith, applied]
              exact .error
          | ok after =>
              rw [runWith, runWith, applied, applies after applied]
              exact inductionHypothesis after

/-- A program does the same with more operands below, within every depth.  The induction is on the depth,
since a program can run procedures that it finds among the operands. -/
theorem staysAbove_run (depth : Nat) (program : Program Real) : StaysAbove (run depth program) := by
  induction depth generalizing program with
  | zero => exact fun _ _ => .error
  | succ depth inductionHypothesis => exact staysAbove_runWith inductionHypothesis program

/-- A program that ends on some operands ends with any operands below them, leaves these as they are, and
leaves on them what it left before. -/
theorem run_append_below {depth : Nat} {program : Program Real} {stack after : Stack Real}
    (runs : run depth program stack = .ok after) (below : Stack Real) :
    run depth program (stack ++ below) = .ok (after ++ below) :=
  staysAbove_run depth program stack below after runs

end Operators

/-- A procedure copies two numbers, rolls their sum below them and repeats it, and leaves a truth value and
a procedure that are below. -/
theorem run_append_below_rolled :
    run 2 [.operator .truth, .procedure [.integer 2, .operator .copy, .operator .add, .integer 3,
          .integer 1, .operator .roll, .integer 2, .operator .index], .operator .when]
        ([.integer 7, .integer 5] : Stack Float) =
      .ok [.integer 12, .integer 7, .integer 5, .integer 12] ∧
    run 2 [.operator .truth, .procedure [.integer 2, .operator .copy, .operator .add, .integer 3,
          .integer 1, .operator .roll, .integer 2, .operator .index], .operator .when]
        ([.integer 7, .integer 5] ++ [.boolean true, .procedure []] : Stack Float) =
      .ok ([.integer 12, .integer 7, .integer 5, .integer 12] ++ [.boolean true, .procedure []]) :=
  ⟨rfl, run_append_below rfl [.boolean true, .procedure []]⟩

end Calculator
end Monochrome
