import Mathlib.Tactic.TFAE
import Monochrome.Proofs.Calculator.Procedures

/-!
# Runs that end

A run of a program is a sequence of instructions.  A procedure that an operator runs is put before
what is still to be run, so the machine that takes one instruction after the other has no depth.
Every instruction makes what the machine holds lighter, unless it copies a procedure; so a run ends
exactly if it copies procedures only finitely often.
-/

namespace Monochrome
namespace Calculator

variable {Real : Type}

/-- A run between two instructions: what is still to be run, and the operands. -/
structure Machine (Real : Type) where
  program : Program Real
  stack : Stack Real

variable [Scalar Real] [Analysis Real]

namespace Machine

/-- The machine after its next instruction.  At the end of its program it stays. -/
def next : Machine Real → Step (Machine Real)
  | ⟨[], stack⟩ => .ok ⟨[], stack⟩
  | ⟨.integer value :: rest, stack⟩ => .ok ⟨rest, .integer value :: stack⟩
  | ⟨.real value :: rest, stack⟩ => .ok ⟨rest, .real value :: stack⟩
  | ⟨.procedure body :: rest, stack⟩ => .ok ⟨rest, .procedure body :: stack⟩
  | ⟨.operator operator :: rest, stack⟩ =>
    match effect operator stack with
    | .ok (body, after) => .ok ⟨body.getD [] ++ rest, after⟩
    | .error fault => .error fault

/-- What a run leaves that ends within the given number of instructions, its end included. -/
def result? : Nat → Machine Real → Option (Step (Stack Real))
  | 0, _ => none
  | _ + 1, ⟨[], stack⟩ => some (.ok stack)
  | steps + 1, machine =>
    match machine.next with
    | .ok next => result? steps next
    | .error fault => some (.error fault)

/-- Whether the next instruction copies a procedure: it leaves more of them than it found. -/
def isCopying : Machine Real → Bool
  | ⟨.operator operator :: _, stack⟩ =>
    match effect operator stack with
    | .ok (_, after) => procedureCount stack < procedureCount after
    | .error _ => false
  | _ => false

/-- How many of the given number of instructions copy a procedure. -/
def copies : Nat → Machine Real → Nat
  | 0, _ => 0
  | steps + 1, machine =>
    (if machine.isCopying then 1 else 0) +
      match machine.next with
      | .ok next => copies steps next
      | .error _ => 0

/-- The number of instructions that a machine holds, in its program and its operands. -/
def weight (machine : Machine Real) : Nat :=
  programWeight machine.program + stackWeight machine.stack

/-- The machine that runs a program on inputs. -/
def start (program : Program Real) (inputs : List Real) : Machine Real :=
  ⟨program, (inputs.map .real).reverse⟩

end Machine

/-! ## Depth and instructions -/

/-- An operator at the beginning of a program has its effect, runs a procedure if it runs one, and
then the others are run. -/
theorem run_operator (depth : Nat) (operator : Operator) (rest : Program Real)
    (stack : Stack Real) :
    run (depth + 1) (.operator operator :: rest) stack =
      effect operator stack >>= resume (run depth) >>= run (depth + 1) rest := by
  simp only [run, runWith, apply_eq]
  cases effect operator stack >>= resume (run depth) <;> rfl

/-- A run is the same within every greater depth, unless it passes the smaller one. -/
theorem run_upTo {depth more : Nat} (within : depth ≤ more) (program : Program Real)
    (stack : Stack Real) :
    Limited.UpTo .nesting (run depth program stack) (run more program stack) := by
  induction depth generalizing more program stack with
  | zero => exact fun settles => absurd rfl settles
  | succ depth inductionHypothesis =>
      obtain ⟨more, rfl⟩ := Nat.exists_eq_add_of_le' within
      rw [← Nat.add_assoc]
      have deeper : depth ≤ more + depth := Nat.le_add_left _ _
      induction program generalizing stack with
      | nil => exact fun _ => rfl
      | cons instruction rest restHypothesis =>
          cases instruction with
          | integer | real | procedure => exact restHypothesis _
          | operator operator =>
              rw [run_operator, run_operator]
              refine Limited.UpTo.bind (Limited.UpTo.bind (.refl _) fun left => ?_) restHypothesis
              obtain ⟨_ | body, after⟩ := left
              · exact fun _ => rfl
              · exact inductionHypothesis deeper body after

namespace Machine

/-- Whether a run with the given result goes on with further instructions to a final one, which
takes at most the given number of them. -/
def GoesOn (steps : Nat) (rest : Program Real) (final : Step (Stack Real)) :
    Step (Stack Real) → Prop
  | .ok after => ∃ left ≤ steps, result? left ⟨rest, after⟩ = some final
  | .error fault => fault ≠ .nesting ∧ final = .error fault

/-- A run that goes on within some number of instructions does within more. -/
theorem GoesOn.of_le {steps more : Nat} {rest : Program Real} {final : Step (Stack Real)}
    {result : Step (Stack Real)} (goes : GoesOn steps rest final result) (within : steps ≤ more) :
    GoesOn more rest final result := by
  cases result with
  | ok after =>
      obtain ⟨left, fewer, ends⟩ := goes
      exact ⟨left, fewer.trans within, ends⟩
  | error fault => exact goes

/-- A run that goes on does not fail for the depth of procedures. -/
theorem GoesOn.settles {steps : Nat} {rest : Program Real} {final : Step (Stack Real)}
    {result : Step (Stack Real)} (goes : GoesOn steps rest final result) :
    result ≠ .error .nesting := by
  rintro rfl
  exact goes.1 rfl

/-- What a machine leaves whose next instruction succeeds is what the machine after it leaves. -/
theorem result?_next {steps : Nat} {instruction : Instruction Real} {rest : Program Real}
    {stack : Stack Real} {after : Machine Real}
    (goes : next ⟨instruction :: rest, stack⟩ = .ok after) :
    result? (steps + 1) ⟨instruction :: rest, stack⟩ = result? steps after := by
  rw [result?, goes]
  exact fun _ equal => List.cons_ne_nil _ _ (congrArg Machine.program equal)

end Machine

open Machine

/-- An operator runs no procedure as an empty one. -/
theorem resume_eq {depth : Nat} {body : Option (Program Real)} {stack : Stack Real}
    {result : Step (Stack Real)} (runs : run depth (body.getD []) stack = result)
    (settles : result ≠ .error .nesting) : resume (run depth) (body, stack) = result := by
  cases body with
  | some body => exact runs
  | none =>
      cases depth with
      | zero => exact absurd runs.symm settles
      | succ depth => exact runs

/-- A run that ends in a machine is a run within some depth, which is no more than the number of
instructions. -/
theorem exists_run_of_result? {steps : Nat} {program rest : Program Real} {stack : Stack Real}
    {final : Step (Stack Real)} (ends : result? steps ⟨program ++ rest, stack⟩ = some final) :
    ∃ depth ≤ steps, GoesOn steps rest final (run depth program stack) := by
  induction steps using Nat.strong_induction_on generalizing program rest stack with
  | _ steps inductionHypothesis =>
  cases steps with
  | zero => simp [result?] at ends
  | succ steps =>
  cases program with
  | nil => exact ⟨1, by omega, steps + 1, le_refl _, ends⟩
  | cons instruction program =>
  -- The program after one of its instructions.
  have afterwards (left : Nat) (fewer : left ≤ steps) (after : Stack Real)
      (endsAfter : result? left ⟨program ++ rest, after⟩ = some final) :
      ∃ depth < steps + 1, GoesOn (steps + 1) rest final (run (depth + 1) program after) := by
    obtain ⟨depth, within, goes⟩ := inductionHypothesis left (by omega) endsAfter
    have same := run_upTo (Nat.le_succ depth) program after goes.settles
    exact ⟨depth, by omega, same ▸ goes.of_le (by omega)⟩
  cases instruction with
  | integer value =>
      obtain ⟨depth, within, goes⟩ := afterwards steps le_rfl _ ((result?_next rfl).symm.trans ends)
      exact ⟨depth + 1, within, goes⟩
  | real value =>
      obtain ⟨depth, within, goes⟩ := afterwards steps le_rfl _ ((result?_next rfl).symm.trans ends)
      exact ⟨depth + 1, within, goes⟩
  | procedure body =>
      obtain ⟨depth, within, goes⟩ := afterwards steps le_rfl _ ((result?_next rfl).symm.trans ends)
      exact ⟨depth + 1, within, goes⟩
  | operator operator =>
      cases atEffect : effect operator stack with
      | error fault =>
          have isFinal : final = .error fault := by simpa [result?, next, atEffect] using ends.symm
          have isNoDepth : fault ≠ .nesting := by simpa [atEffect] using gives_effect operator stack
          refine ⟨1, by omega, ?_⟩
          rw [run_operator, atEffect]
          exact ⟨isNoDepth, isFinal⟩
      | ok left =>
          obtain ⟨body, after⟩ := left
          have ends : result? steps ⟨body.getD [] ++ (program ++ rest), after⟩ = some final :=
            (result?_next (by simp [next, atEffect])).symm.trans ends
          obtain ⟨inner, within, goes⟩ := inductionHypothesis steps (by omega) ends
          cases runs : run inner (body.getD []) after with
          | error fault =>
              rw [runs] at goes
              refine ⟨inner + 1, by omega, ?_⟩
              rw [run_operator, atEffect, Limited.ok_bind, resume_eq runs goes.settles]
              exact goes
          | ok last =>
              rw [runs] at goes
              obtain ⟨left, fewer, endsAfter⟩ := goes
              obtain ⟨outer, fewerDeep, goes⟩ := afterwards left fewer last endsAfter
              have runsDeeper : run (max inner outer) (body.getD []) after = .ok last := by
                rw [run_upTo (le_max_left inner outer) _ _ (by simp [runs]), runs]
              have same := run_upTo (Nat.succ_le_succ (le_max_right inner outer)) program last
                goes.settles
              refine ⟨max inner outer + 1, by omega, ?_⟩
              rw [run_operator, atEffect, Limited.ok_bind, resume_eq runsDeeper (by simp),
                Limited.ok_bind,
                same]
              exact goes

/-- A run that does not fail for the depth ends in the machine, if what is run after it does. -/
theorem exists_result?_of_run {depth steps : Nat} {program rest : Program Real}
    {stack : Stack Real} {final : Step (Stack Real)}
    (goes : GoesOn steps rest final (run depth program stack)) :
    ∃ more, result? more ⟨program ++ rest, stack⟩ = some final := by
  induction depth generalizing steps program rest stack with
  | zero => exact absurd rfl goes.1
  | succ depth depthHypothesis =>
  induction program generalizing stack with
  | nil =>
      obtain ⟨left, -, ends⟩ := goes
      exact ⟨left, ends⟩
  | cons instruction program programHypothesis =>
  cases instruction with
  | integer | real | procedure =>
      obtain ⟨more, ends⟩ := programHypothesis goes
      exact ⟨more + 1, (result?_next rfl).trans ends⟩
  | operator operator =>
      rw [run_operator] at goes
      cases atEffect : effect operator stack with
      | error fault =>
          rw [atEffect] at goes
          exact ⟨1, by simp [result?, next, atEffect, goes.2]⟩
      | ok left =>
          obtain ⟨body, after⟩ := left
          rw [atEffect, Limited.ok_bind] at goes
          have isNext : next ⟨.operator operator :: (program ++ rest), stack⟩ =
              .ok ⟨body.getD [] ++ (program ++ rest), after⟩ := by simp [next, atEffect]
          -- What the procedure leaves goes on with the program after the operator.
          have goesOn : ∃ more,
              GoesOn more (program ++ rest) final (resume (run depth) (body, after)) := by
            cases runs : resume (run depth) (body, after) with
            | error fault => exact ⟨0, by rwa [runs] at goes⟩
            | ok last =>
                obtain ⟨more, ends⟩ := programHypothesis (by simpa [runs] using goes)
                exact ⟨more, more, le_rfl, ends⟩
          obtain ⟨more, goesOn⟩ := goesOn
          have ends : ∃ more,
              result? more ⟨body.getD [] ++ (program ++ rest), after⟩ = some final := by
            cases body with
            | some body => exact depthHypothesis goesOn
            | none =>
                obtain ⟨left, -, ends⟩ := goesOn
                exact ⟨left, ends⟩
          obtain ⟨more, ends⟩ := ends
          exact ⟨more + 1, (result?_next isNext).trans ends⟩

/-! ## Copies -/

namespace Machine

/-- An instruction that copies no procedure makes the machine lighter. -/
theorem weight_lt_of_next {instruction : Instruction Real} {rest : Program Real}
    {stack : Stack Real} {after : Machine Real}
    (goes : next ⟨instruction :: rest, stack⟩ = .ok after)
    (copiesNone : isCopying ⟨instruction :: rest, stack⟩ = false) :
    after.weight < weight ⟨instruction :: rest, stack⟩ := by
  cases instruction with
  | integer | real | procedure =>
      obtain rfl := Except.ok.inj goes
      simp only [weight, programWeight, Instruction.weight, stackWeight_cons, Operand.weight]
      omega
  | operator operator =>
      cases atEffect : effect operator stack with
      | error fault => simp [next, atEffect] at goes
      | ok left =>
          obtain ⟨body, operands⟩ := left
          simp only [next, atEffect, Except.ok.injEq] at goes
          simp only [isCopying, atEffect, decide_eq_false_iff_not] at copiesNone
          have gives := gives_effect operator stack
          simp only [atEffect, Limited.gives_ok] at gives
          have lighter := gives.resolve_left copiesNone
          subst goes
          simp only [weight, programWeight, programWeight_append, Instruction.weight]
          omega

/-- A machine at the end of its program copies nothing any more. -/
theorem copies_nil (steps : Nat) (stack : Stack Real) :
    copies steps (⟨[], stack⟩ : Machine Real) = 0 := by
  induction steps with
  | zero => rfl
  | succ steps inductionHypothesis => simpa [copies, isCopying, next] using inductionHypothesis

/-- A run that ends copies procedures no more often than it takes instructions. -/
theorem copies_le_of_result? {steps : Nat} {machine : Machine Real} {final : Step (Stack Real)}
    (ends : result? steps machine = some final) (more : Nat) : machine.copies more ≤ steps := by
  induction steps generalizing machine more with
  | zero => simp [result?] at ends
  | succ steps inductionHypothesis =>
  obtain ⟨program, stack⟩ := machine
  cases program with
  | nil => exact (copies_nil more stack).trans_le (Nat.zero_le _)
  | cons instruction rest =>
  cases more with
  | zero => exact Nat.zero_le _
  | succ more =>
  cases atNext : next ⟨instruction :: rest, stack⟩ with
  | error fault =>
      simp only [copies, atNext]
      split <;> omega
  | ok after =>
      have fewer := inductionHypothesis ((result?_next atNext).symm.trans ends) more
      simp only [copies, atNext]
      split <;> omega

/-- A run that copies procedures only finitely often ends.  The induction is on the number of copies
that are left and, until the next one, on the weight. -/
theorem exists_result?_of_copies_le {count : Nat} {machine : Machine Real}
    (bounded : ∀ steps, machine.copies steps ≤ count) :
    ∃ steps final, result? steps machine = some final := by
  induction count using Nat.strong_induction_on generalizing machine with
  | _ count countHypothesis =>
  induction weighs : machine.weight using Nat.strong_induction_on generalizing machine with
  | _ weight weightHypothesis =>
  obtain ⟨program, stack⟩ := machine
  cases program with
  | nil => exact ⟨1, _, rfl⟩
  | cons instruction rest =>
  cases atNext : next ⟨instruction :: rest, stack⟩ with
  | error fault => exact ⟨1, .error fault, by simp [result?, atNext]⟩
  | ok after =>
  have endsAfter : ∃ steps final, result? steps after = some final := by
    have boundedNext (steps : Nat) := bounded (steps + 1)
    simp only [copies, atNext] at boundedNext
    cases copying : isCopying ⟨instruction :: rest, stack⟩ with
    | true =>
        simp only [copying, if_true] at boundedNext
        have fewer := boundedNext 0
        exact countHypothesis (count - 1) (by omega) fun steps => by
          have := boundedNext steps
          omega
    | false =>
        simp only [copying, Bool.false_eq_true, if_false, Nat.zero_add] at boundedNext
        exact weightHypothesis _ (weighs ▸ weight_lt_of_next atNext copying) boundedNext rfl
  obtain ⟨steps, final, ends⟩ := endsAfter
  exact ⟨steps + 1, final, (result?_next atNext).trans ends⟩

end Machine

/-! ## Evaluations that end -/

/-- Whether the evaluation of a program on inputs ends: within some depth of procedures, and within
every greater one, it has one and the same result, and does not pass that depth. -/
def Ends (program : Program Real) (inputs : List Real) : Prop :=
  ∃ depth result, result ≠ .error .nesting ∧
    ∀ more, depth ≤ more → evaluateWithin more program inputs = result

/-- An evaluation fails for the depth of procedures if the run does. -/
theorem evaluateWithin_eq_nesting_iff {depth : Nat} {program : Program Real} {inputs : List Real} :
    evaluateWithin depth program inputs = .error .nesting ↔
      run depth program (inputs.map .real).reverse = .error .nesting := by
  unfold evaluateWithin
  cases run depth program (inputs.map .real).reverse with
  | error fault => rw [Limited.error_bind, Except.error.injEq, Except.error.injEq]
  | ok stack =>
      rw [Limited.ok_bind]
      have gives := gives_numbers stack.reverse
      refine iff_of_false (fun nested => ?_) (by simp)
      rw [nested] at gives
      exact gives rfl

/-- An evaluation ends if it does not fail for some depth of procedures. -/
theorem ends_iff_exists_ne_nesting {program : Program Real} {inputs : List Real} :
    Ends program inputs ↔ ∃ depth, evaluateWithin depth program inputs ≠ .error .nesting := by
  constructor
  · rintro ⟨depth, result, settles, same⟩
    exact ⟨depth, by rwa [same depth le_rfl]⟩
  · rintro ⟨depth, settles⟩
    refine ⟨depth, _, settles, fun more within => ?_⟩
    have runs := mt evaluateWithin_eq_nesting_iff.mpr settles
    rw [evaluateWithin, run_upTo within _ _ runs, evaluateWithin]

/-- The procedure that runs a copy of the topmost procedure, which stays on the stack. -/
def copyRunning : Program Real :=
  [.operator .duplicate, .operator .truth, .operator .exchange, .operator .when]

/-- The program that runs its procedure on the procedure itself. -/
def selfRunning : Program Real :=
  .procedure copyRunning :: copyRunning

/-- The program that runs its procedure on the procedure itself passes every depth. -/
theorem not_ends_selfRunning (inputs : List Real) : ¬ Ends selfRunning inputs := by
  have passes (depth : Nat) (stack : Stack Real) :
      run depth copyRunning (.procedure copyRunning :: stack) = .error .nesting := by
    induction depth with
    | zero => rfl
    | succ depth inductionHypothesis =>
        have runsCopy : run (depth + 1) copyRunning (.procedure copyRunning :: stack) =
            run depth copyRunning (.procedure copyRunning :: stack) >>= run (depth + 1) [] :=
          run_operator depth .when [] _
        rw [runsCopy, inductionHypothesis]
        rfl
  rw [ends_iff_exists_ne_nesting]
  rintro ⟨depth, settles⟩
  refine settles (evaluateWithin_eq_nesting_iff.mpr ?_)
  cases depth with
  | zero => rfl
  | succ depth => exact passes (depth + 1) _

end Calculator
end Monochrome
