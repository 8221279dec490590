import Mathlib.Algebra.Order.BigOperators.Group.List
import Mathlib.Data.List.Perm.Basic
import Monochrome.Calculator.Run
import Monochrome.Proofs.Limits

/-!
# Procedures on the stack

Procedures are operands like others, which an operator can copy, move and run.  What an operator
leaves holds no more instructions than what it found, the procedure that it runs included, unless it
copies a procedure.
-/

namespace Monochrome
namespace Calculator

variable {Real : Type}

/-- Whether a step gives a value with a property if it succeeds, and does not fail for the depth of
procedures. -/
abbrev Step.Gives {α : Type} (step : Step α) (holds : α → Prop) : Prop :=
  Limited.Gives .nesting step holds

section Operators

variable [Scalar Real] [Analysis Real]

/-- The effect of an operator, with the procedure that it runs, if it runs one. -/
def effect (operator : Operator) (stack : Stack Real) :
    Step (Option (Program Real) × Stack Real) :=
  match operator with
  | .when => do
    let (body, rest) ← popProcedure stack
    let (condition, rest) ← popBoolean rest
    return (if condition then some body else none, rest)
  | .choose => do
    let (otherwise, rest) ← popProcedure stack
    let (body, rest) ← popProcedure rest
    let (condition, rest) ← popBoolean rest
    return (some (if condition then body else otherwise), rest)
  | operator => do
    return (none, ← apply (fun _ stack => .ok stack) operator stack)

/-- The operands after the procedure that an operator runs. -/
def resume (call : Program Real → Stack Real → Step (Stack Real)) :
    Option (Program Real) × Stack Real → Step (Stack Real)
  | (some body, stack) => call body stack
  | (none, stack) => .ok stack

/-- An operator has its effect and then runs a procedure, if it runs one. -/
theorem apply_eq (call : Program Real → Stack Real → Step (Stack Real)) (operator : Operator)
    (stack : Stack Real) : apply call operator stack = effect operator stack >>= resume call := by
  cases operator with
  | when =>
      simp only [apply, effect, bind_assoc, pure_bind]
      congr 1
      funext ⟨body, rest⟩
      congr 1
      funext ⟨condition, rest⟩
      cases condition <;> rfl
  | choose =>
      simp only [apply, effect, bind_assoc, pure_bind]
      rfl
  | _ =>
      simp only [effect, bind_assoc, pure_bind]
      exact (bind_pure _).symm

end Operators

/-! ## Weights -/

mutual

/-- The number of instructions that an instruction is made of. -/
def Instruction.weight : Instruction Real → Nat
  | .procedure body => programWeight body + 1
  | _ => 1

/-- The number of instructions of a program, those of its procedures included. -/
def programWeight : List (Instruction Real) → Nat
  | [] => 0
  | instruction :: rest => instruction.weight + programWeight rest

end

/-- The weights of programs in sequence add up. -/
theorem programWeight_append (first second : Program Real) :
    programWeight (first ++ second) = programWeight first + programWeight second := by
  induction first with
  | nil => simp [programWeight]
  | cons instruction rest inductionHypothesis =>
      simp only [List.cons_append, programWeight, inductionHypothesis]
      omega

/-- Whether an operand is a procedure. -/
def Operand.isProcedure : Operand Real → Bool
  | .procedure _ => true
  | _ => false

/-- The number of instructions that an operand holds. -/
def Operand.weight : Operand Real → Nat
  | .procedure body => programWeight body
  | _ => 0

/-- An operand that is no procedure holds no instructions. -/
theorem Operand.weight_eq_zero {operand : Operand Real} (plain : operand.isProcedure = false) :
    operand.weight = 0 := by
  cases operand <;> first | rfl | simp [isProcedure] at plain

/-- The number of instructions that operands hold. -/
def stackWeight (stack : Stack Real) : Nat :=
  (stack.map Operand.weight).sum

/-- The number of procedures among operands. -/
def procedureCount (stack : Stack Real) : Nat :=
  stack.countP Operand.isProcedure

@[simp] theorem stackWeight_nil : stackWeight ([] : Stack Real) = 0 :=
  rfl

@[simp] theorem stackWeight_cons (operand : Operand Real) (stack : Stack Real) :
    stackWeight (operand :: stack) = operand.weight + stackWeight stack := by
  simp [stackWeight]

@[simp] theorem stackWeight_append (upper lower : Stack Real) :
    stackWeight (upper ++ lower) = stackWeight upper + stackWeight lower := by
  simp [stackWeight]

/-- Operands hold the same in every order. -/
theorem stackWeight_perm {first second : Stack Real} (perm : first.Perm second) :
    stackWeight first = stackWeight second :=
  (perm.map _).sum_eq

/-- Operands without procedures hold no instructions. -/
theorem stackWeight_eq_zero {stack : Stack Real} (plain : procedureCount stack = 0) :
    stackWeight stack = 0 := by
  induction stack with
  | nil => rfl
  | cons operand rest inductionHypothesis =>
      rw [procedureCount, List.countP_cons, Nat.add_eq_zero_iff] at plain
      rw [stackWeight_cons, inductionHypothesis plain.1,
        Operand.weight_eq_zero (by simpa using plain.2)]

/-- Operands that are rotated stay the same. -/
theorem rotate_perm (count : Nat) (places : Int) (stack : Stack Real) :
    (rotate count places stack).Perm stack := by
  have turned (operands : Stack Real) (count : Nat) :
      (operands.rotateLeft count).Perm operands := by
    unfold List.rotateLeft
    dsimp only
    split
    · exact .refl _
    · refine List.perm_append_comm.trans ?_
      rw [List.take_append_drop]
  refine ((turned (stack.take count) _).append_right _).trans ?_
  rw [List.take_append_drop]

/-! ## What operators do to procedures -/

/-- The topmost operand lies on those below. -/
theorem gives_pop (stack : Stack Real) :
    (pop stack).Gives fun popped => stack = popped.1 :: popped.2 := by
  cases stack <;> simp [pop]

/-- Whether the first operands are those below one that is no procedure. -/
def LiesUnderPlain (stack rest : Stack Real) : Prop :=
  ∃ top : Operand Real, top.isProcedure = false ∧ stack = top :: rest

/-- Operands that lie under one that is no procedure hold all the instructions. -/
theorem LiesUnderPlain.stackWeight_eq {stack rest : Stack Real} (lies : LiesUnderPlain stack rest) :
    stackWeight stack = stackWeight rest := by
  obtain ⟨top, plain, rfl⟩ := lies
  simp [Operand.weight_eq_zero plain]

/-- Operands that lie under one that is no procedure hold all procedures. -/
theorem LiesUnderPlain.procedureCount_eq {stack rest : Stack Real}
    (lies : LiesUnderPlain stack rest) :
    procedureCount stack = procedureCount rest := by
  obtain ⟨top, plain, rfl⟩ := lies
  simp [procedureCount, plain]

/-- A topmost truth value is no procedure. -/
theorem gives_popBoolean (stack : Stack Real) :
    (popBoolean stack).Gives fun popped => LiesUnderPlain stack popped.2 := by
  refine (gives_pop stack).bind fun ⟨top, rest⟩ isStack => ?_
  cases top with
  | boolean value => exact ⟨_, rfl, isStack⟩
  | integer | real | procedure => exact FunctionFault.noConfusion

/-- A topmost procedure lies on the operands below. -/
theorem gives_popProcedure (stack : Stack Real) :
    (popProcedure stack).Gives fun popped => stack = .procedure popped.1 :: popped.2 := by
  refine (gives_pop stack).bind fun ⟨top, rest⟩ isStack => ?_
  cases top with
  | procedure body => exact isStack
  | integer | real | boolean => exact FunctionFault.noConfusion

/-- Whether a step leaves operands that hold no more instructions than those that it found. -/
def Lightens (step : Stack Real → Step (Stack Real)) : Prop :=
  ∀ stack, (step stack).Gives fun after => stackWeight after ≤ stackWeight stack

/-- What takes the place of the two topmost operands and is no procedure lightens. -/
theorem lightens_two {first second result : Operand Real} (rest : Stack Real)
    (plain : result.isProcedure = false) :
    stackWeight (result :: rest) ≤ stackWeight (second :: first :: rest) := by
  simp only [stackWeight_cons, Operand.weight_eq_zero plain]
  omega

/-- A combination of the two topmost operands lightens in their place. -/
theorem lightens_bitwise (operator : Operator) (onBooleans : Bool → Bool → Bool)
    (onIntegers : Int64 → Int64 → Int64) :
    Lightens (bitwise operator onBooleans onIntegers : Stack Real → Step (Stack Real)) := by
  intro stack
  refine (gives_pop stack).bind fun ⟨second, rest⟩ isStack => ?_
  refine (gives_pop rest).bind fun ⟨first, rest⟩ isRest => ?_
  obtain rfl : stack = second :: first :: rest := by rw [isStack, isRest]
  dsimp only
  split
  · exact lightens_two rest rfl
  · exact lightens_two rest rfl
  · exact FunctionFault.noConfusion

/-- A number of operands that is within bounds is no reason to fail for the depth. -/
theorem gives_countWithin {operator : Operator} (count : Int64) (stack : Stack Real) :
    (countWithin operator count stack).Gives fun _ => True := by
  unfold countWithin
  split
  · exact FunctionFault.noConfusion
  · trivial

/-- Operands that are repeated below one that is no procedure are procedures, or hold no
instructions. -/
theorem more_or_light {stack rest : Stack Real} (upper : Stack Real)
    (lies : LiesUnderPlain stack rest) :
    procedureCount stack < procedureCount (upper ++ rest) ∨
      stackWeight (upper ++ rest) ≤ stackWeight stack := by
  rw [lies.stackWeight_eq, lies.procedureCount_eq, stackWeight_append, procedureCount,
    procedureCount, List.countP_append]
  by_cases plain : procedureCount upper = 0
  · right
    rw [stackWeight_eq_zero plain, Nat.zero_add]
  · left
    exact Nat.lt_add_of_pos_left (Nat.pos_of_ne_zero plain)

section Operators

variable [Scalar Real]

/-- Only an operand that is no procedure is a number. -/
theorem gives_number (operand : Operand Real) :
    operand.number.Gives fun _ => operand.isProcedure = false := by
  cases operand <;> simp [Operand.number, Operand.isProcedure]

/-- Operands that are no numbers are no reason to fail for the depth of procedures. -/
theorem gives_numbers (operands : Stack Real) :
    Step.Gives (operands.mapM Operand.number) fun _ => True :=
  Limited.gives_mapM fun operand _ => (gives_number operand).imp fun _ _ => trivial

/-- A topmost number is no procedure. -/
theorem gives_popNumber (stack : Stack Real) :
    (popNumber stack).Gives fun popped => LiesUnderPlain stack popped.2 := by
  refine (gives_pop stack).bind fun ⟨top, rest⟩ isStack => ?_
  exact (gives_number top).bind fun _ plain => ⟨top, plain, isStack⟩

/-- A topmost integer is no procedure. -/
theorem gives_popInteger (stack : Stack Real) :
    (popInteger stack).Gives fun popped => LiesUnderPlain stack popped.2 := by
  refine (gives_pop stack).bind fun ⟨top, rest⟩ isStack => ?_
  cases top with
  | integer value => exact ⟨_, rfl, isStack⟩
  | real value =>
      dsimp only
      split
      · exact ⟨_, rfl, isStack⟩
      · exact FunctionFault.noConfusion
  | boolean | procedure => exact FunctionFault.noConfusion

/-- A number that takes the place of the topmost operand lightens. -/
theorem lightens_unary (onInteger : Int64 → Int64) (onReal : Real → Real) :
    Lightens (unary onInteger onReal) := by
  intro stack
  refine (gives_pop stack).bind fun ⟨top, rest⟩ isStack => ?_
  have plain (result : Operand Real) (isPlain : result.isProcedure = false) :
      stackWeight (result :: rest) ≤ stackWeight stack := by
    rw [isStack, stackWeight_cons, stackWeight_cons, Operand.weight_eq_zero isPlain]
    exact Nat.add_le_add_right (Nat.zero_le _) _
  cases top with
  | integer value => exact plain _ rfl
  | real | boolean | procedure => exact (gives_number _).bind fun _ _ => plain _ rfl

/-- A number that takes the place of the topmost number lightens. -/
theorem lightens_realUnary (onReal : Real → Real) : Lightens (realUnary onReal) := by
  intro stack
  refine (gives_popNumber stack).bind fun ⟨value, rest⟩ lies => ?_
  rw [lies.stackWeight_eq]
  exact (stackWeight_cons _ _).trans_le (Nat.zero_add _).le

/-- A number that takes the place of the two topmost ones lightens. -/
theorem lightens_arithmetic (onIntegers : Int64 → Int64 → Int64)
    (onReals : Real → Real → Real) : Lightens (arithmetic onIntegers onReals) := by
  intro stack
  refine (gives_pop stack).bind fun ⟨second, rest⟩ isStack => ?_
  refine (gives_pop rest).bind fun ⟨first, rest⟩ isRest => ?_
  obtain rfl : stack = second :: first :: rest := by rw [isStack, isRest]
  dsimp only
  split
  · exact lightens_two rest rfl
  · refine (gives_number _).bind fun _ _ => (gives_number _).bind fun _ _ => ?_
    exact lightens_two rest rfl

/-- The truth of a relation in the place of the two topmost numbers lightens. -/
theorem lightens_relation (holds : Real → Real → Bool) : Lightens (relation holds) := by
  intro stack
  refine (gives_pop stack).bind fun ⟨second, rest⟩ isStack => ?_
  refine (gives_pop rest).bind fun ⟨first, rest⟩ isRest => ?_
  obtain rfl : stack = second :: first :: rest := by rw [isStack, isRest]
  refine (gives_number _).bind fun _ _ => (gives_number _).bind fun _ _ => ?_
  exact lightens_two rest rfl

/-- Whether the two topmost operands are equal lightens in their place. -/
theorem lightens_equality (wanted : Bool) :
    Lightens (equality wanted : Stack Real → Step (Stack Real)) := by
  intro stack
  unfold equality
  split
  · exact lightens_two _ rfl
  · exact lightens_relation _ stack

/-- An integer that takes the place of the two topmost ones lightens. -/
theorem lightens_division (onIntegers : Int64 → Int64 → Int64) :
    Lightens (division onIntegers : Stack Real → Step (Stack Real)) := by
  intro stack
  refine (gives_popInteger stack).bind fun ⟨second, rest⟩ lies => ?_
  refine (gives_popInteger rest).bind fun ⟨first, below⟩ liesBelow => ?_
  rw [lies.stackWeight_eq, liesBelow.stackWeight_eq]
  dsimp only
  split
  · exact FunctionFault.noConfusion
  · exact (stackWeight_cons _ _).trans_le (Nat.zero_add _).le

variable [Analysis Real]

/-- What an operator leaves that is no conditional: more procedures than it found, or operands that
hold no more instructions. -/
theorem gives_apply {operator : Operator} (notWhen : operator ≠ .when)
    (notChoose : operator ≠ .choose) (call : Program Real → Stack Real → Step (Stack Real))
    (stack : Stack Real) :
    (apply call operator stack).Gives fun after =>
      procedureCount stack < procedureCount after ∨ stackWeight after ≤ stackWeight stack := by
  have push {first second : Stack Real} (value : Operand Real) (plain : value.isProcedure = false)
      (lies : LiesUnderPlain stack first) (liesBelow : LiesUnderPlain first second) :
      stackWeight (value :: second) ≤ stackWeight stack := by
    rw [lies.stackWeight_eq, liesBelow.stackWeight_eq, stackWeight_cons,
      Operand.weight_eq_zero plain, Nat.zero_add]
  cases operator with
  | «when» => exact absurd rfl notWhen
  | choose => exact absurd rfl notChoose
  | abs | neg | ceiling | floor | round | truncate =>
      exact (lightens_unary _ _ stack).imp fun _ => Or.inr
  | add | sub | mul => exact (lightens_arithmetic _ _ stack).imp fun _ => Or.inr
  | quotient | remainder => exact (lightens_division _ stack).imp fun _ => Or.inr
  | cos =>
      exact (lightens_realUnary (fun angle => Analysis.cosine (radians angle)) stack).imp
        fun _ => Or.inr
  | sin =>
      exact (lightens_realUnary (fun angle => Analysis.sine (radians angle)) stack).imp
        fun _ => Or.inr
  | ln | log | sqrt | toReal => exact (lightens_realUnary _ stack).imp fun _ => Or.inr
  | equal | unequal => exact (lightens_equality _ stack).imp fun _ => Or.inr
  | atLeast | greater | atMost | less => exact (lightens_relation _ stack).imp fun _ => Or.inr
  | conjunction | disjunction | exclusion =>
      exact (lightens_bitwise _ _ _ stack).imp fun _ => Or.inr
  | div =>
      refine (gives_popNumber stack).bind fun ⟨second, rest⟩ lies => ?_
      refine (gives_popNumber rest).bind fun ⟨first, below⟩ liesBelow => ?_
      dsimp only
      split
      · exact FunctionFault.noConfusion
      · exact Or.inr (push _ rfl lies liesBelow)
  | atan | exp =>
      refine (gives_popNumber stack).bind fun ⟨second, rest⟩ lies => ?_
      refine (gives_popNumber rest).bind fun ⟨first, below⟩ liesBelow => ?_
      exact Or.inr (push _ rfl lies liesBelow)
  | shift =>
      refine (gives_popInteger stack).bind fun ⟨second, rest⟩ lies => ?_
      refine (gives_popInteger rest).bind fun ⟨first, below⟩ liesBelow => ?_
      exact Or.inr (push _ rfl lies liesBelow)
  | toInteger =>
      refine (gives_popNumber stack).bind fun ⟨value, rest⟩ lies => ?_
      rw [lies.stackWeight_eq]
      exact Or.inr ((stackWeight_cons _ _).trans_le (Nat.zero_add _).le)
  | complement =>
      refine (gives_pop stack).bind fun ⟨top, rest⟩ isStack => ?_
      cases top with
      | boolean | integer =>
          rw [isStack]
          exact Or.inr (le_refl _)
      | real | procedure => exact FunctionFault.noConfusion
  | truth | falsehood => exact Or.inr ((stackWeight_cons _ _).trans_le (Nat.zero_add _).le)
  | copy =>
      refine (gives_popInteger stack).bind fun ⟨count, rest⟩ lies => ?_
      exact (gives_countWithin count rest).bind fun count _ => more_or_light _ lies
  | duplicate =>
      refine (gives_pop stack).bind fun ⟨top, rest⟩ isStack => ?_
      rw [isStack]
      cases isProcedure : top.isProcedure with
      | true => exact Or.inl (by simp [procedureCount, isProcedure])
      | false => exact Or.inr (by simp [Operand.weight_eq_zero isProcedure])
  | exchange =>
      refine (gives_pop stack).bind fun ⟨second, rest⟩ isStack => ?_
      refine (gives_pop rest).bind fun ⟨first, below⟩ isRest => ?_
      rw [isStack, isRest]
      exact Or.inr (stackWeight_perm (.swap _ _ _)).le
  | index =>
      refine (gives_popInteger stack).bind fun ⟨depth, rest⟩ lies => ?_
      dsimp only
      split
      · exact FunctionFault.noConfusion
      · split
        · exact more_or_light [_] lies
        · exact FunctionFault.noConfusion
  | discard =>
      refine (gives_pop stack).bind fun ⟨top, rest⟩ isStack => ?_
      rw [isStack, stackWeight_cons]
      exact Or.inr (Nat.le_add_left _ _)
  | roll =>
      refine (gives_popInteger stack).bind fun ⟨places, rest⟩ lies => ?_
      refine (gives_popInteger rest).bind fun ⟨count, below⟩ liesBelow => ?_
      refine (gives_countWithin count below).bind fun count _ => ?_
      rw [lies.stackWeight_eq, liesBelow.stackWeight_eq]
      exact Or.inr (stackWeight_perm (rotate_perm _ _ _)).le

/-- An operator leaves more procedures than it found, or the procedure that it runs and the operands
hold no more instructions than those that it found. -/
theorem gives_effect (operator : Operator) (stack : Stack Real) :
    (effect operator stack).Gives fun left =>
      procedureCount stack < procedureCount left.2 ∨
        programWeight (left.1.getD []) + stackWeight left.2 ≤ stackWeight stack := by
  by_cases isWhen : operator = .when
  · subst isWhen
    refine (gives_popProcedure stack).bind fun ⟨body, rest⟩ isStack => ?_
    refine (gives_popBoolean rest).bind fun ⟨condition, below⟩ lies => ?_
    right
    rw [isStack, stackWeight_cons, lies.stackWeight_eq]
    cases condition with
    | true => exact le_refl _
    | false => exact Nat.add_le_add_right (Nat.zero_le _) _
  · by_cases isChoose : operator = .choose
    · subst isChoose
      refine (gives_popProcedure stack).bind fun ⟨otherwise, rest⟩ isStack => ?_
      refine (gives_popProcedure rest).bind fun ⟨body, below⟩ isRest => ?_
      refine (gives_popBoolean below).bind fun ⟨condition, last⟩ lies => ?_
      right
      dsimp only at isRest lies
      rw [isStack, stackWeight_cons, isRest, stackWeight_cons, lies.stackWeight_eq]
      cases condition with
      | true => exact Nat.le_add_left _ _
      | false => exact Nat.add_le_add_left (Nat.le_add_left _ _) _
    · have alone : (do
          return (none, ← apply (fun _ stack => .ok stack) operator stack) :
          Step (Option (Program Real) × Stack Real)).Gives fun left =>
            procedureCount stack < procedureCount left.2 ∨
              programWeight (left.1.getD []) + stackWeight left.2 ≤ stackWeight stack :=
        (gives_apply isWhen isChoose _ stack).bind fun after kept =>
          kept.imp_right (Nat.zero_add _).trans_le
      cases operator <;> first | exact alone | contradiction

end Operators
end Calculator
end Monochrome
