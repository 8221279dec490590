import Monochrome.Filter.Deflate.Reading
import Monochrome.Filter.Deflate.Writing

/-!
# Texts as literal bytes and copies

The parts into which a text is cut spell the text again.  A copy goes as far as what it starts
from agrees with what the text goes on with, so that each byte it repeats is the next one.
-/

namespace Monochrome
namespace Deflate

/-- The text after a part of it. -/
def Part.extend (text : Array UInt8) : Part → Array UInt8
  | literal byte => text.push byte
  | copy copied => Deflate.copy copied.distance copied.length text

/-! ## Copies -/

/-- Two texts have no more in common than the second one has bytes. -/
theorem commonLength_le (first second : Bytes) : commonLength first second ≤ second.length := by
  fun_induction commonLength first second with
  | case1 first firsts second seconds same inductionHypothesis =>
      rw [List.length_cons]
      omega
  | case2 => exact Nat.zero_le _
  | case3 => exact Nat.zero_le _

/-- The byte at the distance of a window's length is the first of the window. -/
theorem byteBefore_window (front window : Bytes) (byte : UInt8) :
    byteBefore (front ++ byte :: window).toArray (window.length + 1) = byte := by
  have far : window.length + 1 ≤ (front ++ byte :: window).toArray.size := by simp
  have start : (front ++ byte :: window).toArray.size - (window.length + 1) = front.length := by
    simp
  rw [byteBefore, if_pos far, start]
  simp

/-- A copy goes on with a text as far as the window before the text and the text agree with it. -/
theorem copy_window {count : Nat} (front : Bytes) {window next : Bytes} (near : window ≠ [])
    (common : count ≤ commonLength (window ++ next) next) :
    copy window.length count (front ++ window).toArray =
      (front ++ window ++ next.take count).toArray := by
  induction count generalizing front window next with
  | zero => simp [copy]
  | succ count inductionHypothesis =>
      match window, next with
      | [], _ => exact absurd rfl near
      | _ :: _, [] =>
          rw [List.append_nil] at common
          have none := commonLength_le ‹_› ([] : Bytes)
          simp [commonLength] at common
      | first :: window, byte :: next =>
          rw [List.cons_append, commonLength] at common
          split at common
          next same =>
            have isByte : first = byte := eq_of_beq same
            subst isByte
            have shifted : (front ++ first :: window ++ [first]).toArray =
                ((front ++ [first]) ++ (window ++ [first])).toArray := by simp
            have agrees : count ≤ commonLength ((window ++ [first]) ++ next) next := by
              rw [List.append_assoc, List.singleton_append]
              omega
            have copied := inductionHypothesis (front ++ [first]) (by simp) agrees
            rw [List.length_cons, copy, byteBefore_window, List.push_toArray, shifted]
            rw [List.length_append, List.length_singleton] at copied
            rw [copied]
            simp
          next => omega

/-- A copy from the past of a text repeats the text that follows. -/
structure Copy.Repeats (copied : Copy) (past next : Bytes) : Prop where
  long : 3 ≤ copied.length
  short : copied.length ≤ next.length
  behind : 1 ≤ copied.distance
  within : copied.distance ≤ past.length
  copies : copy copied.distance copied.length past.reverse.toArray =
    (past.reverse ++ next.take copied.length).toArray

/-- The longest copy is one of those that are looked at, and longer than asked for. -/
theorem foldl_longest {lengths : List Copy} {above : Nat} {best : Option Copy} {found : Copy}
    (isFound : lengths.foldl
      (fun best copied =>
        if (best.map Copy.length).getD above < copied.length then some copied else best)
      best = some found)
    (start : ∀ copied, best = some copied → above < copied.length) :
    above < found.length ∧ (best = some found ∨ found ∈ lengths) := by
  induction lengths generalizing best with
  | nil => exact ⟨start found isFound, .inl isFound⟩
  | cons copied lengths inductionHypothesis =>
      rw [List.foldl_cons] at isFound
      split at isFound
      next longer =>
        have above' : above < copied.length := by
          cases best with
          | none => exact longer
          | some held => exact Nat.lt_trans (start held rfl) longer
        have later := inductionHypothesis isFound (by
          intro other isOther
          cases isOther
          exact above')
        refine ⟨later.1, .inr ?_⟩
        rcases later.2 with isCopied | among
        · cases isCopied
          exact List.mem_cons_self
        · exact List.mem_cons_of_mem _ among
      next =>
        have later := inductionHypothesis isFound start
        exact ⟨later.1, later.2.imp id (List.mem_cons_of_mem _)⟩

/-- A copy that is found repeats the text. -/
theorem repeats_of_longestCopy? {past next : Bytes} {above : Nat} {copied : Copy}
    (isFound : longestCopy? past next above = some copied) (least : 2 ≤ above) :
    copied.Repeats past next := by
  have found := foldl_longest isFound (by simp)
  have among : copied ∈ (List.range (past.length - 1)).map fun index =>
      (⟨commonLength ((past.take (index + 1)).reverse ++ next) next, index + 1⟩ : Copy) := by
    rcases found.2 with isNone | among
    · cases isNone
    · exact among
  rw [List.mem_map] at among
  obtain ⟨index, isIndex, isCopied⟩ := among
  have before : index < past.length - 1 := List.mem_range.mp isIndex
  have windowLength : ((past.take (index + 1)).reverse).length = index + 1 := by
    rw [List.length_reverse, List.length_take]
    omega
  have split : (past.drop (index + 1)).reverse ++ (past.take (index + 1)).reverse =
      past.reverse := by
    rw [← List.reverse_append, List.take_append_drop]
  have copies := copy_window (past.drop (index + 1)).reverse
    (List.ne_nil_of_length_eq_add_one windowLength) (Nat.le_refl (commonLength (_ ++ next) next))
  rw [windowLength, split] at copies
  subst isCopied
  exact {
    long := Nat.lt_of_le_of_lt least found.1
    short := commonLength_le _ _
    behind := Nat.le_add_left _ _
    within := by show index + 1 ≤ past.length; omega
    copies := copies }

/-! ## The parts of a text -/

/-- A part that the codes for short texts have symbols for. -/
def Part.Fits : Part → Prop
  | literal _ => True
  | copy copied =>
    3 ≤ copied.length ∧ copied.length < storedLength ∧
      1 ≤ copied.distance ∧ copied.distance < storedLength

/-- A copy that repeats a short text fits. -/
theorem Copy.Repeats.fits {copied : Copy} {past next : Bytes} (repeated : copied.Repeats past next)
    (short : past.length + next.length < storedLength) : (Part.copy copied).Fits :=
  ⟨repeated.long, Nat.lt_of_le_of_lt repeated.short (by omega), repeated.behind,
    Nat.lt_of_le_of_lt repeated.within (by omega)⟩

/-- The past without the byte that is held back. -/
def beforeHeld (past : Bytes) : Option (UInt8 × Copy) → Bytes
  | none => past
  | some _ => past.tail

/-- What is held back is the newest byte, and a copy that starts at it. -/
def Held (past next : Bytes) : Option (UInt8 × Copy) → Prop
  | none => True
  | some (byte, copied) => ∃ earlier, past = byte :: earlier ∧ copied.Repeats earlier (byte :: next)

/-- The parts of a text spell it, behind the past but for the byte that is held back. -/
theorem foldl_parts {past next : Bytes} {held : Option (UInt8 × Copy)} (isHeld : Held past next held) :
    (parts past held next).foldl Part.extend (beforeHeld past held).reverse.toArray =
      (past.reverse ++ next).toArray := by
  fun_induction parts past held next with
  | case1 past held =>
      cases held with
      | none => simp [beforeHeld]
      | some first =>
          obtain ⟨earlier, rfl, -⟩ := isHeld
          simp [beforeHeld, Part.extend]
  | case2 past byte rest isNone inductionHypothesis =>
      rw [isNone]
      simpa [beforeHeld, Part.extend] using inductionHypothesis trivial
  | case3 past byte rest copied isSome inductionHypothesis =>
      rw [isSome]
      simpa [beforeHeld] using
        inductionHypothesis ⟨past, rfl, repeats_of_longestCopy? isSome (Nat.le_refl 2)⟩
  | case4 past byte rest first copied longer isSome inductionHypothesis =>
      obtain ⟨earlier, rfl, repeated⟩ := isHeld
      have long : 2 ≤ copied.length := Nat.le_of_succ_le repeated.long
      rw [isSome]
      simpa [beforeHeld, Part.extend] using
        inductionHypothesis ⟨first :: earlier, rfl, repeats_of_longestCopy? isSome long⟩
  | case5 past byte rest first copied isNone inductionHypothesis =>
      obtain ⟨earlier, rfl, repeated⟩ := isHeld
      have later := inductionHypothesis trivial
      have taken : (first :: byte :: rest).take copied.length =
          first :: byte :: rest.take (copied.length - 2) := by
        have long := repeated.long
        rw [show copied.length = copied.length - 2 + 1 + 1 by omega, List.take_succ_cons,
          List.take_succ_cons]
        rfl
      have copies := repeated.copies
      rw [taken] at copies
      rw [isNone]
      simp only [List.foldl_cons, Part.extend, beforeHeld, List.tail_cons]
      rw [copies]
      simpa [beforeHeld] using later

/-- The parts of a text spell it. -/
theorem foldl_parts_whole (text : Bytes) :
    ((parts [] none text).foldl Part.extend #[]).toList = text := by
  have held : Held [] text none := trivial
  have spelled := foldl_parts held
  simp only [beforeHeld, List.reverse_nil, List.nil_append] at spelled
  exact congrArg Array.toList spelled

/-- Every part of a short text fits. -/
theorem fits_of_mem_parts {past next : Bytes} {held : Option (UInt8 × Copy)} {part : Part}
    (isHeld : Held past next held) (short : past.length + next.length < storedLength)
    (isPart : part ∈ parts past held next) : part.Fits := by
  fun_induction parts past held next with
  | case1 past held =>
      cases held with
      | none => cases isPart
      | some first =>
          cases List.mem_singleton.mp isPart
          trivial
  | case2 past byte rest isNone inductionHypothesis =>
      rw [isNone] at isPart
      rcases List.mem_cons.mp isPart with rfl | later
      · trivial
      · exact inductionHypothesis trivial (by simp only [List.length_cons] at short ⊢; omega) later
  | case3 past byte rest copied isSome inductionHypothesis =>
      rw [isSome] at isPart
      exact inductionHypothesis ⟨past, rfl, repeats_of_longestCopy? isSome (Nat.le_refl 2)⟩
        (by simp only [List.length_cons] at short ⊢; omega) isPart
  | case4 past byte rest first copied longer isSome inductionHypothesis =>
      obtain ⟨earlier, rfl, repeated⟩ := isHeld
      have long : 2 ≤ copied.length := Nat.le_of_succ_le repeated.long
      rw [isSome] at isPart
      rcases List.mem_cons.mp isPart with rfl | later
      · trivial
      · exact inductionHypothesis ⟨first :: earlier, rfl, repeats_of_longestCopy? isSome long⟩
          (by simp only [List.length_cons] at short ⊢; omega) later
  | case5 past byte rest first copied isNone inductionHypothesis =>
      obtain ⟨earlier, rfl, repeated⟩ := isHeld
      rw [isNone] at isPart
      rcases List.mem_cons.mp isPart with rfl | later
      · exact repeated.fits (by simp only [List.length_cons] at short ⊢; omega)
      · refine inductionHypothesis trivial ?_ later
        simp only [List.length_cons, List.length_append, List.length_reverse, List.length_take,
          List.length_drop] at short ⊢
        omega

end Deflate
end Monochrome
