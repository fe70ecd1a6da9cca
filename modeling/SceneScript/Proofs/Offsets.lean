/-
**Places as sums of lengths.**

The place of an instruction is the sum of the lengths before it (`offsetAt`), on the way to bytes as
on the way back. What a short branch has to hold is the number of bytes between its own end and its
destination, on whichever side that lies (`gap`).

* `startOffsets_toList`: the computed places are these sums;
* `offsetAt_inj`: instructions that are not empty have different places;
* `startOffsets_le`, `gap_le_gap`: places and gaps grow with the lengths;
* `gap_le_add`: a gap grows by no more than the lengths together;
* `dvd_gap`: a number that divides all lengths divides every gap.
-/

import SceneScript.Assembly.Layout
import Mathlib.Algebra.BigOperators.Group.List.Lemmas
import Mathlib.Algebra.BigOperators.Ring.List
import Mathlib.Algebra.Order.BigOperators.Group.List
import Mathlib.Algebra.Order.Group.Nat
import Mathlib.Algebra.Ring.Nat
import Mathlib.Data.List.Forall2

namespace SceneScript.Layout

/-- The place of the instruction with a given index, given the lengths. -/
def offsetAt (sizes : List Nat) (index : Nat) : Nat := (sizes.take index).sum

/-- The number of bytes between the end of the instruction with a given index and a destination. -/
def gap (sizes : List Nat) (index place : Nat) : Nat :=
  offsetAt sizes (max (index + 1) place) - offsetAt sizes (min (index + 1) place)

variable {sizes sizes' : List Nat} {index place : Nat}

@[simp] theorem offsetAt_zero (sizes : List Nat) : offsetAt sizes 0 = 0 := rfl

theorem offsetAt_cons (size : Nat) (sizes : List Nat) (index : Nat) :
    offsetAt (size :: sizes) (index + 1) = size + offsetAt sizes index := by
  simp [offsetAt]

theorem offsetAt_length (sizes : List Nat) : offsetAt sizes sizes.length = sizes.sum := by
  simp [offsetAt]

theorem offsetAt_succ {size : Nat} (found : sizes[index]? = some size) :
    offsetAt sizes (index + 1) = offsetAt sizes index + size := by
  obtain ⟨inside, rfl⟩ := List.getElem?_eq_some_iff.mp found
  simp only [offsetAt, List.sum_take_succ sizes index inside]

/-- The lengths between two places. -/
theorem offsetAt_add_drop (sizes : List Nat) {first last : Nat} (ordered : first ≤ last) :
    offsetAt sizes last = offsetAt sizes first + ((sizes.take last).drop first).sum := by
  have split := congrArg List.sum (List.take_append_drop first (sizes.take last))
  rw [List.sum_append, List.take_take, Nat.min_eq_left ordered] at split
  exact split.symm

theorem offsetAt_le_offsetAt (sizes : List Nat) {first last : Nat} (ordered : first ≤ last) :
    offsetAt sizes first ≤ offsetAt sizes last := by
  rw [offsetAt_add_drop sizes ordered]
  exact Nat.le_add_right _ _

theorem offsetAt_lt_offsetAt (positive : ∀ size ∈ sizes, 0 < size) {first last : Nat}
    (ordered : first < last) (inside : last ≤ sizes.length) :
    offsetAt sizes first < offsetAt sizes last := by
  have found : sizes[first]? = some sizes[first] := List.getElem?_eq_getElem (by omega)
  have step := offsetAt_succ found
  have rest := offsetAt_le_offsetAt sizes (show first + 1 ≤ last from ordered)
  have grows := positive _ (List.mem_of_getElem? found)
  omega

/-- **Instructions that are not empty have different places.** -/
theorem offsetAt_inj (positive : ∀ size ∈ sizes, 0 < size) {first last : Nat}
    (inside : first ≤ sizes.length) (inside' : last ≤ sizes.length)
    (same : offsetAt sizes first = offsetAt sizes last) : first = last := by
  rcases Nat.lt_trichotomy first last with before | equal | behind
  · have := offsetAt_lt_offsetAt positive before inside'
    omega
  · exact equal
  · have := offsetAt_lt_offsetAt positive behind inside
    omega

/-! ### The computed places -/

theorem foldl_places (sizes : List Nat) (starts : Array Nat) (start : Nat) :
    sizes.foldl (fun (starts, start) size => (starts.push start, start + size)) (starts, start) =
      (starts ++ ((List.range sizes.length).map fun index => start + offsetAt sizes index).toArray,
        start + sizes.sum) := by
  induction sizes generalizing starts start with
  | nil => simp
  | cons size sizes ih =>
    rw [List.foldl_cons, ih, List.length_cons, List.range_succ_eq_map]
    simp [offsetAt_cons, Nat.add_assoc, Function.comp_def]

/-- **The computed places are the sums of the lengths before them.** -/
theorem startOffsets_toList (sizes : List Nat) :
    (startOffsets sizes).toList = (List.range (sizes.length + 1)).map (offsetAt sizes) := by
  simp [startOffsets, foldl_places, List.range_succ, offsetAt_length]

theorem getElem?_startOffsets (inside : index ≤ sizes.length) :
    (startOffsets sizes)[index]? = some (offsetAt sizes index) := by
  rw [← Array.getElem?_toList, startOffsets_toList, List.getElem?_map,
    List.getElem?_range (by omega)]
  rfl

theorem getD_startOffsets (inside : index ≤ sizes.length) :
    (startOffsets sizes).getD index 0 = offsetAt sizes index := by
  rw [Array.getD_eq_getD_getElem?, getElem?_startOffsets inside, Option.getD_some]

@[simp] theorem size_startOffsets (sizes : List Nat) :
    (startOffsets sizes).size = sizes.length + 1 := by
  rw [← Array.length_toList, startOffsets_toList, List.length_map, List.length_range]

theorem back?_startOffsets (sizes : List Nat) : (startOffsets sizes).back? = some sizes.sum := by
  rw [← Array.getLast?_toList, startOffsets_toList, List.range_succ]
  simp [offsetAt_length]

theorem offsetAt_le_of_forall₂ (longer : List.Forall₂ (· ≤ ·) sizes sizes') (index : Nat) :
    offsetAt sizes index ≤ offsetAt sizes' index :=
  (List.forall₂_take index longer).sum_le_sum

/-- **Places grow with the lengths.** -/
theorem startOffsets_le (longer : List.Forall₂ (· ≤ ·) sizes sizes') :
    List.Forall₂ (· ≤ ·) (startOffsets sizes).toList (startOffsets sizes').toList := by
  rw [startOffsets_toList, startOffsets_toList, longer.length_eq, List.forall₂_map_left_iff,
    List.forall₂_map_right_iff, List.forall₂_same]
  exact fun index _ => offsetAt_le_of_forall₂ longer index

/-! ### Gaps -/

theorem gap_eq_sum (sizes : List Nat) (index place : Nat) :
    gap sizes index place =
      ((sizes.take (max (index + 1) place)).drop (min (index + 1) place)).sum := by
  have ordered : min (index + 1) place ≤ max (index + 1) place := by omega
  rw [gap, offsetAt_add_drop sizes ordered, Nat.add_sub_cancel_left]

theorem gap_of_backward (backward : place ≤ index) :
    gap sizes index place = offsetAt sizes (index + 1) - offsetAt sizes place := by
  rw [gap, Nat.max_eq_left (Nat.le_succ_of_le backward),
    Nat.min_eq_right (Nat.le_succ_of_le backward)]

theorem gap_of_forward (forward : index < place) :
    gap sizes index place = offsetAt sizes place - offsetAt sizes (index + 1) := by
  rw [gap, Nat.max_eq_right forward, Nat.min_eq_left forward]

theorem gap_le_sum (sizes : List Nat) (index place : Nat) : gap sizes index place ≤ sizes.sum := by
  have split := List.sum_take_add_sum_drop sizes (max (index + 1) place)
  rw [gap, offsetAt]
  omega

/-- **A gap grows with the lengths.** -/
theorem gap_le_gap (longer : List.Forall₂ (· ≤ ·) sizes sizes') (index place : Nat) :
    gap sizes index place ≤ gap sizes' index place := by
  rw [gap_eq_sum, gap_eq_sum]
  exact (List.forall₂_drop _ (List.forall₂_take _ longer)).sum_le_sum

/-- **A gap grows by no more than the lengths together.** -/
theorem gap_le_add (longer : List.Forall₂ (· ≤ ·) sizes sizes') (index place : Nat) {growth : Nat}
    (total : sizes'.sum ≤ sizes.sum + growth) :
    gap sizes' index place ≤ gap sizes index place + growth := by
  rw [gap_eq_sum, gap_eq_sum]
  generalize ordered : min (index + 1) place = first
  generalize behind : max (index + 1) place = last
  have split : ∀ sizes : List Nat, sizes.sum =
      offsetAt sizes first + ((sizes.take last).drop first).sum + (sizes.drop last).sum := by
    intro sizes
    rw [← offsetAt_add_drop sizes (by omega), offsetAt, List.sum_take_add_sum_drop]
  have before : offsetAt sizes first ≤ offsetAt sizes' first :=
    (List.forall₂_take first longer).sum_le_sum
  have after : (sizes.drop last).sum ≤ (sizes'.drop last).sum :=
    (List.forall₂_drop last longer).sum_le_sum
  have whole := split sizes
  have whole' := split sizes'
  omega

theorem dvd_gap {divisor : Nat} (divides : ∀ size ∈ sizes, divisor ∣ size) (index place : Nat) :
    divisor ∣ gap sizes index place := by
  rw [gap_eq_sum]
  refine List.dvd_sum fun size member => divides size ?_
  exact List.mem_of_mem_take (List.mem_of_mem_drop member)

end SceneScript.Layout
