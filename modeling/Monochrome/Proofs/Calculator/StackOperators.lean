import Mathlib.Data.List.Rotate
import Mathlib.Tactic.Zify
import Monochrome.Proofs.Calculator.Procedures

/-!
# Operators of the stack

The operators that only move operands obey the laws of rotations.  Rolling moves each of the topmost
operands by the given number of places, counted around; rolling twice is rolling by the sum, and rolling
back undoes it.  Exchanging two operands is rolling them by one place, and duplicating one is repeating it
from the top.  What reaches below the last operand is refused, and so is every operator that finds too few
operands.
-/

namespace Monochrome
namespace Calculator

variable {Real α : Type}

/-- The program that rolls the given number of operands by the given number of places. -/
def rolling (count places : Int64) : Program Real :=
  [.integer count, .integer places, .operator .roll]

/-- The program that copies the given number of operands. -/
def copying (count : Int64) : Program Real :=
  [.integer count, .operator .copy]

/-- The program that repeats the operand under the given number of others. -/
def indexing (index : Int64) : Program Real :=
  [.integer index, .operator .index]

/-! ## Rotations -/

/-- Turning a list to the left is rotating it. -/
theorem rotateLeft_eq_rotate (list : List α) (count : Nat) : list.rotateLeft count = list.rotate count := by
  rw [List.rotate_eq_drop_append_take_mod, List.rotateLeft]
  dsimp only
  split
  · rename_i short
    match list, short with
    | [], _ => simp
    | [_], _ => simp [Nat.mod_one]
  · rfl

section Rotations

variable {count : Nat} {stack : Stack Real}

/-- The topmost operands are rotated, and those below stay. -/
theorem rotate_eq (places : Int) :
    rotate count places stack =
      (stack.take count).rotate (places % count).toNat ++ stack.drop count := by
  rw [rotate, rotateLeft_eq_rotate]

/-- Rotated operands are as many as before. -/
theorem length_rotate (places : Int) : (rotate count places stack).length = stack.length := by
  rw [rotate_eq, List.length_append, List.length_rotate, ← List.length_append, List.take_append_drop]

/-- The operands below the rotated ones stay. -/
theorem drop_rotate (inside : count ≤ stack.length) (places : Int) :
    (rotate count places stack).drop count = stack.drop count := by
  rw [rotate_eq, List.drop_left' (by simp [inside])]

/-- The rotated operands. -/
theorem take_rotate (inside : count ≤ stack.length) (places : Int) :
    (rotate count places stack).take count = (stack.take count).rotate (places % count).toNat := by
  rw [rotate_eq, List.take_left' (by simp [inside])]

/-- Places are counted around. -/
theorem rotate_mod (places : Int) : rotate count (places % count) stack = rotate count places stack := by
  rw [rotate, rotate, Int.emod_emod_of_dvd _ (dvd_refl _)]

/-- Rotations in sequence are one by the sum of the places. -/
theorem rotate_rotate (inside : count ≤ stack.length) (first second : Int) :
    rotate count second (rotate count first stack) = rotate count (first + second) stack := by
  rcases Nat.eq_zero_or_pos count with rfl | positive
  · simp [rotate]
  have height : (stack.take count).length = count := by simp [inside]
  have nonnegative (places : Int) : 0 ≤ places % count := Int.emod_nonneg _ (by omega)
  have places : ((first % count).toNat + (second % count).toNat) % count =
      ((first + second) % count).toNat % count := by
    zify
    rw [Int.toNat_of_nonneg (nonnegative _), Int.toNat_of_nonneg (nonnegative _),
      Int.toNat_of_nonneg (nonnegative _), Int.emod_emod_of_dvd _ (dvd_refl _), ← Int.add_emod]
  rw [rotate_eq, take_rotate inside, drop_rotate inside, List.rotate_rotate, rotate_eq,
    ← List.rotate_mod, height, places, ← List.rotate_mod _ ((first + second) % count).toNat, height]

/-- Rotating by no place changes nothing. -/
theorem rotate_zero : rotate count 0 stack = stack := by
  rw [rotate_eq, Int.zero_emod, Int.toNat_zero, List.rotate_zero, List.take_append_drop]

/-- The operand at a depth goes up by the number of places, counted around. -/
theorem getElem?_rotate (inside : count ≤ stack.length) (places : Int) {index : Nat}
    (among : index < count) :
    (rotate count places stack)[((index - places) % count).toNat]? = stack[index]? := by
  have nonzero : (count : Int) ≠ 0 := by omega
  have height : (stack.take count).length = count := by simp [inside]
  have target : ((index - places) % count).toNat < count := by
    have bound := Int.emod_lt_of_pos (index - places) (show (0 : Int) < count by omega)
    omega
  have source : (((index - places) % count).toNat + (places % count).toNat) % count = index := by
    zify
    rw [Int.toNat_of_nonneg (Int.emod_nonneg _ nonzero), Int.toNat_of_nonneg (Int.emod_nonneg _ nonzero),
      ← Int.add_emod, sub_add_cancel, Int.emod_eq_of_lt (by omega) (by omega)]
  rw [rotate_eq, List.getElem?_append_left (by simpa [height] using target),
    List.getElem?_rotate (by rw [height]; exact target), height, source, List.getElem?_take_of_lt among]

end Rotations

/-! ## Counts of operands -/

section Counts

variable {operator : Operator} {count : Int64} {stack : Stack Real}

/-- A number of operands is found if there are as many. -/
theorem countWithin_eq_ok (nonnegative : 0 ≤ count.toInt) (inside : count.toInt ≤ stack.length) :
    countWithin operator count stack = .ok count.toInt.toNat := by
  rw [countWithin, if_neg]
  simp only [Bool.or_eq_true, decide_eq_true_eq, not_or, Int64.lt_iff_toInt_lt, Int64.toInt_zero]
  omega

/-- A number of operands is refused if it is negative or there are fewer. -/
theorem countWithin_eq_error (outside : count.toInt < 0 ∨ (stack.length : Int) < count.toInt) :
    countWithin operator count stack = .error (.outOfRange operator.keyword) := by
  rw [countWithin, if_pos]
  simpa [Int64.lt_iff_toInt_lt] using outside

end Counts

/-! ## Too few operands -/

/-- The number of operands that an operator takes from the stack, besides those that it counts. -/
def Operator.operandCount : Operator → Nat
  | .truth | .falsehood => 0
  | .abs | .neg | .ceiling | .floor | .round | .truncate | .cos | .sin | .ln | .log | .sqrt | .toInteger
  | .toReal | .complement | .copy | .duplicate | .index | .discard => 1
  | .add | .sub | .mul | .div | .quotient | .remainder | .atan | .exp | .equal | .unequal | .atLeast
  | .greater | .atMost | .less | .conjunction | .disjunction | .exclusion | .shift | .when | .exchange
  | .roll => 2
  | .choose => 3

/-- Whether a step that succeeds takes one operand. -/
def TakesOne (take : Stack Real → Step (α × Stack Real)) : Prop :=
  ∀ stack, (take stack).Gives fun taken => stack.length = taken.2.length + 1

/-- A step that takes one operand first fails if the steps after it do on one operand less, or if there is
none. -/
theorem TakesOne.fails {β : Type} {take : Stack Real → Step (α × Stack Real)} (takes : TakesOne take)
    {stack : Stack Real} {count : Nat} (few : stack.length < count + 1) {next : α × Stack Real → Step β}
    (rest : ∀ value (below : Stack Real), below.length < count →
      (next (value, below)).Gives fun _ => False) :
    (take stack >>= next).Gives fun _ => False :=
  (takes stack).bind fun (value, below) taken => rest value below (by dsimp only at taken; omega)

/-- The topmost operand is one. -/
theorem takesOne_pop : TakesOne (pop : Stack Real → Step (Operand Real × Stack Real)) :=
  fun stack => (gives_pop stack).imp fun _ isStack => by rw [isStack, List.length_cons]

/-- A topmost truth value is one operand. -/
theorem takesOne_popBoolean : TakesOne (popBoolean : Stack Real → Step (Bool × Stack Real)) :=
  fun stack => (gives_popBoolean stack).imp fun _ ⟨_, _, isStack⟩ => by rw [isStack, List.length_cons]

/-- A topmost procedure is one operand. -/
theorem takesOne_popProcedure :
    TakesOne (popProcedure : Stack Real → Step (Program Real × Stack Real)) :=
  fun stack => (gives_popProcedure stack).imp fun _ isStack => by rw [isStack, List.length_cons]

section Operators

variable [Scalar Real]

/-- A topmost number is one operand. -/
theorem takesOne_popNumber : TakesOne (popNumber : Stack Real → Step (Real × Stack Real)) :=
  fun stack => (gives_popNumber stack).imp fun _ ⟨_, _, isStack⟩ => by rw [isStack, List.length_cons]

/-- A topmost integer is one operand. -/
theorem takesOne_popInteger : TakesOne (popInteger : Stack Real → Step (Int64 × Stack Real)) :=
  fun stack => (gives_popInteger stack).imp fun _ ⟨_, _, isStack⟩ => by rw [isStack, List.length_cons]

/-- A relation between fewer operands than two fails. -/
theorem fails_relation (holds : Real → Real → Bool) {stack : Stack Real} (few : stack.length < 2) :
    (relation holds stack).Gives fun _ => False :=
  takesOne_pop.fails few fun _ _ few => takesOne_pop.fails few nofun

/-- The equality of fewer operands than two fails. -/
theorem fails_equality (wanted : Bool) {stack : Stack Real} (few : stack.length < 2) :
    (equality wanted stack).Gives fun _ => False := by
  unfold equality
  split
  · simp only [List.length_cons] at few
    omega
  · exact fails_relation _ few

variable [Analysis Real]

/-- An operator fails on fewer operands than it takes. -/
theorem fails_apply (call : Program Real → Stack Real → Step (Stack Real)) {operator : Operator}
    {stack : Stack Real} (few : stack.length < operator.operandCount) :
    (apply call operator stack).Gives fun _ => False := by
  cases operator with
  | truth | falsehood => exact absurd few (Nat.not_lt_zero _)
  | abs | neg | ceiling | floor | round | truncate | duplicate | discard | complement =>
      exact takesOne_pop.fails few nofun
  | cos | sin | ln | log | sqrt | toReal | toInteger => exact takesOne_popNumber.fails few nofun
  | copy | index => exact takesOne_popInteger.fails few nofun
  | add | sub | mul | conjunction | disjunction | exclusion | exchange =>
      exact takesOne_pop.fails few fun _ _ few => takesOne_pop.fails few nofun
  | div | atan | exp => exact takesOne_popNumber.fails few fun _ _ few => takesOne_popNumber.fails few nofun
  | quotient | remainder | shift | roll =>
      exact takesOne_popInteger.fails few fun _ _ few => takesOne_popInteger.fails few nofun
  | equal | unequal => exact fails_equality _ few
  | atLeast | greater | atMost | less => exact fails_relation _ few
  | «when» =>
      exact takesOne_popProcedure.fails few fun _ _ few => takesOne_popBoolean.fails few nofun
  | choose =>
      exact takesOne_popProcedure.fails few fun _ _ few =>
        takesOne_popProcedure.fails few fun _ _ few => takesOne_popBoolean.fails few nofun

/-! ## Programs that move operands -/

variable {depth : Nat} {stack : Stack Real}

/-- An operator at the beginning of a program is applied, and then the others are run. -/
theorem run_cons_operator (operator : Operator) (rest : Program Real) :
    run (depth + 1) (.operator operator :: rest) stack =
      apply (run depth) operator stack >>= run (depth + 1) rest := by
  simp only [run, runWith]
  cases apply (run depth) operator stack <;> rfl

/-- A program that begins with rolling rolls as many operands as it asks for, if there are as many. -/
theorem run_rolling (count places : Int64) (rest : Program Real) :
    run (depth + 1) (rolling count places ++ rest) stack =
      countWithin .roll count stack >>= fun number =>
        run (depth + 1) rest (rotate number places.toInt stack) := by
  have rolls : apply (run depth) .roll (.integer places :: .integer count :: stack) =
      countWithin .roll count stack >>= fun number => .ok (rotate number places.toInt stack) := rfl
  show run (depth + 1) (.operator .roll :: rest) (.integer places :: .integer count :: stack) = _
  rw [run_cons_operator, rolls, bind_assoc]
  rfl

/-- Rolling operands that there are. -/
theorem run_rolling_ok {count : Int64} (nonnegative : 0 ≤ count.toInt)
    (inside : count.toInt ≤ stack.length) (places : Int64) (rest : Program Real) :
    run (depth + 1) (rolling count places ++ rest) stack =
      run (depth + 1) rest (rotate count.toInt.toNat places.toInt stack) := by
  rw [run_rolling, countWithin_eq_ok nonnegative inside, Limited.ok_bind]

/-- Rolling operands that there are not. -/
theorem run_rolling_error {count : Int64}
    (outside : count.toInt < 0 ∨ (stack.length : Int) < count.toInt) (places : Int64)
    (rest : Program Real) :
    run (depth + 1) (rolling count places ++ rest) stack = .error (.outOfRange "roll") := by
  rw [run_rolling, countWithin_eq_error outside, Limited.error_bind]
  rfl

/-- Copying repeats as many operands as it asks for, if there are as many. -/
theorem run_copying (count : Int64) :
    run (depth + 1) (copying count) stack =
      countWithin .copy count stack >>= fun number => .ok (stack.take number ++ stack) := by
  have copies : apply (run depth) .copy (.integer count :: stack) =
      countWithin .copy count stack >>= fun number => .ok (stack.take number ++ stack) := rfl
  show run (depth + 1) [.operator .copy] (.integer count :: stack) = _
  rw [run_cons_operator, copies]
  exact bind_pure _

/-- Copying operands that there are. -/
theorem run_copying_ok {count : Int64} (nonnegative : 0 ≤ count.toInt)
    (inside : count.toInt ≤ stack.length) :
    run (depth + 1) (copying count) stack = .ok (stack.take count.toInt.toNat ++ stack) := by
  rw [run_copying, countWithin_eq_ok nonnegative inside, Limited.ok_bind]

/-- Copying operands that there are not. -/
theorem run_copying_error {count : Int64}
    (outside : count.toInt < 0 ∨ (stack.length : Int) < count.toInt) :
    run (depth + 1) (copying count) stack = .error (.outOfRange "copy") := by
  rw [run_copying, countWithin_eq_error outside, Limited.error_bind]
  rfl

/-- Repeating the operand at an index puts it on top, if there is one. -/
theorem run_indexing (index : Int64) :
    run (depth + 1) (indexing index) stack =
      if index.toInt < 0 then .error (.outOfRange "index")
      else
        match stack[index.toInt.toNat]? with
        | some operand => .ok (operand :: stack)
        | none => .error (.outOfRange "index") := by
  have repeats : apply (run depth) .index (.integer index :: stack) =
      if index < 0 then .error (.outOfRange "index")
      else
        match stack[index.toInt.toNat]? with
        | some operand => .ok (operand :: stack)
        | none => .error (.outOfRange "index") := rfl
  show run (depth + 1) [.operator .index] (.integer index :: stack) = _
  rw [run_cons_operator, repeats]
  simp only [Int64.lt_iff_toInt_lt, Int64.toInt_zero]
  split
  · rfl
  · cases stack[index.toInt.toNat]? <;> rfl

/-- Repeating an operand that there is. -/
theorem run_indexing_ok {index : Int64} (nonnegative : 0 ≤ index.toInt) {operand : Operand Real}
    (found : stack[index.toInt.toNat]? = some operand) :
    run (depth + 1) (indexing index) stack = .ok (operand :: stack) := by
  rw [run_indexing, if_neg (by omega), found]

/-- Repeating an operand that there is not. -/
theorem run_indexing_error {index : Int64}
    (outside : index.toInt < 0 ∨ (stack.length : Int) ≤ index.toInt) :
    run (depth + 1) (indexing index) stack = .error (.outOfRange "index") := by
  rw [run_indexing]
  split
  · rfl
  · rw [List.getElem?_eq_none (by omega)]

/-- An operator fails that finds fewer operands than it takes. -/
theorem exists_run_error {operator : Operator} (few : stack.length < operator.operandCount) :
    ∃ fault, run (depth + 1) [.operator operator] stack = .error fault := by
  have fails := fails_apply (run depth) few
  rw [run_cons_operator]
  cases applied : apply (run depth) operator stack with
  | ok after =>
      rw [applied] at fails
      exact fails.elim
  | error fault => exact ⟨fault, rfl⟩

/-! ## Laws of rolling -/

/-- Rolling moves an operand to its depth less the number of places, counted around, and leaves those
below. -/
theorem run_rolling_moves {count : Int64} (nonnegative : 0 ≤ count.toInt)
    (inside : count.toInt ≤ stack.length) (places : Int64) : ∃ after,
    run (depth + 1) (rolling count places) stack = .ok after ∧
      after.length = stack.length ∧
      (∀ index : Nat, index < count.toInt →
        after[((index - places.toInt) % count.toInt).toNat]? = stack[index]?) ∧
      after.drop count.toInt.toNat = stack.drop count.toInt.toNat := by
  have within : count.toInt.toNat ≤ stack.length := by omega
  have isCount : (count.toInt.toNat : Int) = count.toInt := Int.toNat_of_nonneg nonnegative
  refine ⟨rotate count.toInt.toNat places.toInt stack, ?_, length_rotate _, fun index among => ?_,
    drop_rotate within _⟩
  · rw [← List.append_nil (rolling count places), run_rolling_ok nonnegative inside]
    rfl
  · rw [← isCount]
    exact getElem?_rotate within _ (by omega)

/-- Rolling twice is rolling by the sum of the places, also where it is refused. -/
theorem run_rolling_rolling {count first second total : Int64}
    (isTotal : total.toInt = first.toInt + second.toInt) :
    run (depth + 1) (rolling count first ++ rolling count second) stack =
      run (depth + 1) (rolling count total) stack := by
  rw [← List.append_nil (rolling count second), ← List.append_nil (rolling count total)]
  by_cases within : 0 ≤ count.toInt ∧ count.toInt ≤ stack.length
  · obtain ⟨nonnegative, inside⟩ := within
    rw [run_rolling_ok nonnegative inside, run_rolling_ok nonnegative (by rwa [length_rotate]),
      run_rolling_ok nonnegative inside, rotate_rotate (by omega), isTotal]
  · have outside : count.toInt < 0 ∨ (stack.length : Int) < count.toInt := by omega
    rw [run_rolling_error outside, run_rolling_error outside]

/-- Rolling is rolling by the rest of the places, also where it is refused. -/
theorem run_rolling_around {count places rest : Int64} (positive : 0 < count.toInt)
    (isRest : rest.toInt = places.toInt % count.toInt) :
    run (depth + 1) (rolling count places) stack = run (depth + 1) (rolling count rest) stack := by
  have same : rotate count.toInt.toNat (places.toInt % (count.toInt.toNat : Int)) stack =
      rotate count.toInt.toNat places.toInt stack := rotate_mod places.toInt
  rw [Int.toNat_of_nonneg (by omega), ← isRest] at same
  rw [← List.append_nil (rolling count places), ← List.append_nil (rolling count rest), run_rolling,
    run_rolling]
  by_cases inside : count.toInt ≤ stack.length
  · rw [countWithin_eq_ok (by omega) inside, Limited.ok_bind, Limited.ok_bind, same]
  · rw [countWithin_eq_error (by omega), Limited.error_bind, Limited.error_bind]

/-- Rolling by the opposite number of places undoes rolling. -/
theorem run_rolling_back {count places opposite : Int64} (nonnegative : 0 ≤ count.toInt)
    (inside : count.toInt ≤ stack.length) (isOpposite : opposite.toInt = -places.toInt) :
    run (depth + 1) (rolling count places ++ rolling count opposite) stack = .ok stack := by
  have sameHeight : count.toInt ≤ (rotate count.toInt.toNat places.toInt stack).length := by
    rwa [length_rotate]
  rw [← List.append_nil (rolling count opposite), run_rolling_ok nonnegative inside,
    run_rolling_ok nonnegative sameHeight, rotate_rotate (by omega), isOpposite, add_neg_cancel, rotate_zero]
  rfl

/-! ## Operators as others -/

/-- Exchanging two operands is rolling them by one place; both fail where there are fewer. -/
theorem run_exchange :
    (run (depth + 1) [.operator .exchange] stack).toOption =
      (run (depth + 1) (rolling 2 1) stack).toOption := by
  match stack with
  | [] | [_] => rfl
  | second :: first :: rest =>
      have rolled : run (depth + 1) (rolling 2 1 ++ []) (second :: first :: rest) =
          run (depth + 1) [] (rotate 2 1 (second :: first :: rest)) :=
        run_rolling_ok (by decide) (by simp; omega) 1 []
      rw [List.append_nil] at rolled
      rw [rolled]
      rfl

/-- Duplicating the topmost operand is repeating the one at index zero; both fail where there is none. -/
theorem run_duplicate_indexing :
    (run (depth + 1) [.operator .duplicate] stack).toOption =
      (run (depth + 1) (indexing 0) stack).toOption := by
  cases stack <;> rfl

/-- Duplicating the topmost operand is copying one; both fail where there is none. -/
theorem run_duplicate_copying :
    (run (depth + 1) [.operator .duplicate] stack).toOption =
      (run (depth + 1) (copying 1) stack).toOption := by
  cases stack with
  | nil => rfl
  | cons top rest =>
      rw [run_copying_ok (by decide) (by simp)]
      rfl

/-! ## The laws -/

/-- Rolling moves each of the topmost operands to its depth less the number of places, counted around, and
leaves those below; rolling twice is rolling by the sum, rolling by the rest is rolling, and rolling back
undoes it.  Exchanging is rolling two operands by one place, and duplicating is repeating or copying one.
Copying repeats the topmost operands in order.  What reaches outside of the stack is refused, and every
operator fails that finds too few operands. -/
theorem stackOperators_laws (depth : Nat) (stack : Stack Real) :
    (∀ count places : Int64, 0 ≤ count.toInt → count.toInt ≤ stack.length → ∃ after,
      run (depth + 1) (rolling count places) stack = .ok after ∧
      after.length = stack.length ∧
      (∀ index : Nat, index < count.toInt →
        after[((index - places.toInt) % count.toInt).toNat]? = stack[index]?) ∧
      after.drop count.toInt.toNat = stack.drop count.toInt.toNat) ∧
    (∀ count first second total : Int64, total.toInt = first.toInt + second.toInt →
      run (depth + 1) (rolling count first ++ rolling count second) stack =
        run (depth + 1) (rolling count total) stack) ∧
    (∀ count places rest : Int64, 0 < count.toInt → rest.toInt = places.toInt % count.toInt →
      run (depth + 1) (rolling count places) stack = run (depth + 1) (rolling count rest) stack) ∧
    (∀ count places opposite : Int64, 0 ≤ count.toInt → count.toInt ≤ stack.length →
      opposite.toInt = -places.toInt →
      run (depth + 1) (rolling count places ++ rolling count opposite) stack = .ok stack) ∧
    (run (depth + 1) [.operator .exchange] stack).toOption =
      (run (depth + 1) (rolling 2 1) stack).toOption ∧
    (run (depth + 1) [.operator .duplicate] stack).toOption =
      (run (depth + 1) (indexing 0) stack).toOption ∧
    (run (depth + 1) [.operator .duplicate] stack).toOption =
      (run (depth + 1) (copying 1) stack).toOption ∧
    (∀ count : Int64, 0 ≤ count.toInt → count.toInt ≤ stack.length →
      run (depth + 1) (copying count) stack = .ok (stack.take count.toInt.toNat ++ stack)) ∧
    (∀ (index : Int64) operand, 0 ≤ index.toInt → stack[index.toInt.toNat]? = some operand →
      run (depth + 1) (indexing index) stack = .ok (operand :: stack)) ∧
    (∀ count places : Int64, count.toInt < 0 ∨ (stack.length : Int) < count.toInt →
      run (depth + 1) (rolling count places) stack = .error (.outOfRange "roll") ∧
      run (depth + 1) (copying count) stack = .error (.outOfRange "copy")) ∧
    (∀ index : Int64, index.toInt < 0 ∨ (stack.length : Int) ≤ index.toInt →
      run (depth + 1) (indexing index) stack = .error (.outOfRange "index")) ∧
    ∀ operator : Operator, stack.length < operator.operandCount →
      ∃ fault, run (depth + 1) [.operator operator] stack = .error fault := by
  refine ⟨fun count places nonnegative inside => run_rolling_moves nonnegative inside places,
    fun _ _ _ _ isTotal => run_rolling_rolling isTotal,
    fun _ _ _ positive isRest => run_rolling_around positive isRest,
    fun _ _ _ nonnegative inside isOpposite => run_rolling_back nonnegative inside isOpposite,
    run_exchange, run_duplicate_indexing, run_duplicate_copying,
    fun _ nonnegative inside => run_copying_ok nonnegative inside,
    fun _ _ nonnegative found => run_indexing_ok nonnegative found,
    fun count places outside => ⟨?_, run_copying_error outside⟩,
    fun _ outside => run_indexing_error outside, fun _ few => exists_run_error few⟩
  rw [← List.append_nil (rolling count places), run_rolling_error outside]

end Operators

/-- A number above a truth value. -/
theorem stackOperators_laws_two :
    ∃ stack : Stack Float, stack = [.integer 4, .boolean true] ∧
      (∃ after, run 1 (rolling 2 (-3)) stack = .ok after ∧ after[1]? = some (.integer 4)) ∧
      run 1 (rolling 2 7 ++ rolling 2 (-10)) stack = run 1 (rolling 2 (-3)) stack ∧
      run 1 (rolling 2 (-3)) stack = run 1 (rolling 2 1) stack ∧
      run 1 (rolling 2 (-3) ++ rolling 2 3) stack = .ok stack ∧
      run 1 (copying 2) stack = .ok [.integer 4, .boolean true, .integer 4, .boolean true] ∧
      run 1 (indexing 1) stack = .ok [.boolean true, .integer 4, .boolean true] ∧
      run 1 (rolling 3 0) stack = .error (.outOfRange "roll") ∧
      run 1 (indexing 2) stack = .error (.outOfRange "index") ∧
      ∃ fault, run 1 [.operator .choose] stack = .error fault := by
  refine ⟨_, rfl, ?_⟩
  obtain ⟨rolls, sum, rest, back, -, -, -, copies, repeats, refused, refusedIndex, few⟩ :=
    stackOperators_laws 0 ([.integer 4, .boolean true] : Stack Float)
  obtain ⟨after, rolled, -, moved, -⟩ := rolls 2 (-3) (by decide) (by decide)
  exact ⟨⟨after, rolled, moved 0 (by decide)⟩, sum 2 7 (-10) (-3) (by decide),
    rest 2 (-3) 1 (by decide) (by decide), back 2 (-3) 3 (by decide) (by decide) (by decide),
    copies 2 (by decide) (by decide), repeats 1 _ (by decide) rfl,
    (refused 3 0 (Or.inr (by decide))).1, refusedIndex 2 (Or.inr (by decide)), few .choose (by decide)⟩

end Calculator
end Monochrome
