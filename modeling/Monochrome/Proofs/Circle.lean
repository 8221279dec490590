import Mathlib.Data.List.Perm.Subperm
import Mathlib.Logic.Relation
import Mathlib.Tactic.TFAE
import Monochrome.Proofs.Limits

/-!
# Circles

A recursion over a relation passes every depth exactly if it comes to a circle, or to a point where
it stops for another reason.  Among finitely many points it then passes a depth only if it passes
every one.
-/

namespace Monochrome

open Relation

variable {α : Type} {nests : α → α → Prop} {stops : α → Prop} {passes : Nat → α → Prop}

/-- Whether the points that can be reached from a point come to one that can be reached from itself,
or to one where the way stops. -/
def ComesToCircle (nests : α → α → Prop) (stops : α → Prop) (point : α) : Prop :=
  ∃ last, ReflTransGen nests point last ∧ (TransGen nests last last ∨ stops last)

/-- A way that comes to a circle after its first step comes to it. -/
theorem ComesToCircle.head {point next : α} (step : nests point next)
    (comes : ComesToCircle nests stops next) : ComesToCircle nests stops point := by
  obtain ⟨last, reaches, circle⟩ := comes
  exact ⟨last, .head step reaches, circle⟩

/-- Each point of a circle is followed by a point of a circle. -/
theorem exists_next_of_circle {point : α} (circle : TransGen nests point point) :
    ∃ next, nests point next ∧ TransGen nests next next := by
  obtain ⟨next, step, back⟩ := TransGen.head'_iff.mp circle
  exact ⟨next, step, TransGen.tail' back step⟩

/-- A recursion that comes to a circle passes every depth, if it passes a depth whenever what it
calls passes the smaller one. -/
theorem ComesToCircle.passes_every (passesNone : ∀ point, passes 0 point)
    (passesBack : ∀ depth point next, nests point next → passes depth next →
      passes (depth + 1) point)
    (passesStop : ∀ depth point, stops point → passes depth point) {point : α}
    (comes : ComesToCircle nests stops point) (depth : Nat) : passes depth point := by
  have around (depth : Nat) : ∀ last, TransGen nests last last → passes depth last := by
    induction depth with
    | zero => exact fun last _ => passesNone last
    | succ depth inductionHypothesis =>
        intro last circle
        obtain ⟨next, step, circle⟩ := exists_next_of_circle circle
        exact passesBack depth last next step (inductionHypothesis next circle)
  obtain ⟨last, reaches, atLast⟩ := comes
  induction reaches using ReflTransGen.head_induction_on generalizing depth with
  | refl => exact atLast.elim (around depth last) (passesStop depth last)
  | head step _ inductionHypothesis =>
      cases depth with
      | zero => exact passesNone _
      | succ depth => exact passesBack depth _ _ step (inductionHypothesis depth)

/-- A recursion that passes as great a depth as there are points comes to a circle.  The points on
the way are different from each other as long as there is no circle. -/
theorem comesToCircle_of_passes (passes : Nat → α → Prop) {points : List α}
    (closed : ∀ point ∈ points, ∀ next, nests point next → next ∈ points)
    (passesOn : ∀ depth point, passes (depth + 1) point →
      (∃ next, nests point next ∧ passes depth next) ∨ stops point)
    {depth : Nat} (deep : points.length ≤ depth) {point : α} (isPoint : point ∈ points)
    (passed : passes depth point) : ComesToCircle nests stops point := by
  have along (depth : Nat) : ∀ (visited : List α) (point : α), visited.Nodup →
      (∀ earlier ∈ visited, earlier ∈ points ∧ TransGen nests earlier point) →
      points.length ≤ visited.length + depth → point ∈ points → passes depth point →
      ComesToCircle nests stops point := by
    induction depth with
    | zero =>
        intro visited point nodup isEarlier long isPoint _
        by_cases again : point ∈ visited
        · exact ⟨point, .refl, Or.inl (isEarlier point again).2⟩
        · have inside : point :: visited ⊆ points :=
            List.cons_subset.mpr ⟨isPoint, fun earlier member => (isEarlier earlier member).1⟩
          have short :=
          (List.subperm_of_subset (List.nodup_cons.mpr ⟨again, nodup⟩) inside).length_le
          simp only [List.length_cons] at short
          omega
    | succ depth inductionHypothesis =>
        intro visited point nodup isEarlier long isPoint passed
        by_cases again : point ∈ visited
        · exact ⟨point, .refl, Or.inl (isEarlier point again).2⟩
        · rcases passesOn depth point passed with ⟨next, step, passedNext⟩ | stop
          · have comes : ComesToCircle nests stops next := by
              refine inductionHypothesis (point :: visited) next
                (List.nodup_cons.mpr ⟨again, nodup⟩) ?_ ?_ (closed point isPoint next step)
                passedNext
              · intro earlier member
                rcases List.mem_cons.mp member with rfl | member
                · exact ⟨isPoint, .single step⟩
                · exact ⟨(isEarlier earlier member).1, (isEarlier earlier member).2.tail step⟩
              · simp only [List.length_cons]
                omega
            exact comes.head step
          · exact ⟨point, .refl, Or.inr stop⟩
  exact along depth [] point .nil (by simp) (by simpa using deep) isPoint passed

/-! ## Recursions counted down from a limit -/

variable {ε β : Type} {limit : ε} {read : Nat → α → Except ε β}

/-- A recursion that is counted down from a limit calls itself at the points after a point.  It
fails for the limit exactly if one of those calls does, or if it stops there for another reason. -/
structure IsRecursion (limit : ε) (read : Nat → α → Except ε β) (nests : α → α → Prop)
    (stops : α → Prop) : Prop where
  none : ∀ point, read 0 point = .error limit
  on : ∀ depth point, read (depth + 1) point = .error limit →
    (∃ next, nests point next ∧ read depth next = .error limit) ∨ stops point
  back : ∀ depth point next, nests point next → read depth next = .error limit →
    read (depth + 1) point = .error limit
  stop : ∀ depth point, stops point → read depth point = .error limit
  more : ∀ depth more point, depth ≤ more → Limited.UpTo limit (read depth point) (read more point)

/-- A recursion at a point ends exactly if it does within as many calls as there are points, exactly
if it does within a greater number of them, and exactly if it comes to no circle. -/
theorem IsRecursion.ends_tfae (recursion : IsRecursion limit read nests stops) {points : List α}
    (closed : ∀ point ∈ points, ∀ next, nests point next → next ∈ points) {point : α}
    (isPoint : point ∈ points) {budget : Nat} (enough : points.length ≤ budget) :
    [∃ depth result, result ≠ .error limit ∧ ∀ more, depth ≤ more → read more point = result,
      ∀ depth, points.length ≤ depth → read depth point ≠ .error limit,
      read budget point ≠ .error limit,
      ¬ ComesToCircle nests stops point].TFAE := by
  tfae_have 1 → 4 := by
    rintro ⟨depth, result, settles, same⟩ comes
    refine settles ((same depth (Nat.le_refl depth)).symm.trans ?_)
    exact comes.passes_every recursion.none recursion.back recursion.stop depth
  tfae_have 4 → 2 := fun around depth deep passed =>
    around (comesToCircle_of_passes (fun depth point => read depth point = .error limit) closed
      recursion.on deep isPoint passed)
  tfae_have 2 → 3 := fun settles => settles budget enough
  tfae_have 3 → 1 := fun settles =>
    ⟨budget, _, settles, fun more deeper => recursion.more budget more point deeper settles⟩
  tfae_finish

end Monochrome
