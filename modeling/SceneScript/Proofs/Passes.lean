/-
**Layout passes.**

`Layout.settle` repeats `pass` until a pass would change nothing (`Settled`). A branch is measured
by the gap to its destination, in whichever direction that lies, provided that its target names the
side on which it lies (`Slot.Sound`).

* `Slot.promotion?_eq_some_iff`: a branch is made long if it is short, has a long form, and its gap
  is above 255;
* `settle_eq_some_iff`: the result of `settle` is the first settled iterate of `pass`, if the budget
  reaches that far;
* `iterate_pass`: what a pass keeps, every number of passes keeps.
-/

import SceneScript.Proofs.Catalogue
import SceneScript.Proofs.Offsets
import Mathlib.Logic.Function.Iterate

namespace SceneScript

open Layout

/-! ### One branch -/

namespace Slot

/-- The opcode of a slot is a row, and its target lies in a script of `count` instructions, on the
side that it names. -/
structure Sound (count index : Nat) (slot : Slot) : Prop where
  known : ∀ {opcode}, slot.opcode = some opcode → opcode ∈ Opcode.catalogue
  inside : ∀ {target}, slot.target = some target → target.index ≤ count
  side : ∀ {target}, slot.target = some target → target.backward = decide (target.index ≤ index)

section Measure

variable {sizes : List Nat} {index : Nat} {slot : Slot}

/-- **The distance of a branch is its gap.** -/
theorem distance_eq_gap (sound : slot.Sound sizes.length index)
    (sized : sizes[index]? = some slot.size) {target : Target}
    (targeted : slot.target = some target) :
    slot.distance (startOffsets sizes) index target = gap sizes index target.index := by
  have inside := sound.inside targeted
  have bound : index < sizes.length := (List.getElem?_eq_some_iff.mp sized).1
  have next := offsetAt_succ sized
  unfold distance
  rw [getD_startOffsets (Nat.le_of_lt bound), getD_startOffsets inside,
    sound.side targeted]
  by_cases backward : target.index ≤ index
  · have ordered := offsetAt_le_offsetAt sizes (show target.index ≤ index + 1 by omega)
    simp only [backward, decide_true, if_true, gap_of_backward backward]
    omega
  · have forward : index < target.index := Nat.lt_of_not_le backward
    have ordered := offsetAt_le_offsetAt sizes (show index + 1 ≤ target.index from forward)
    simp only [backward, decide_false, Bool.false_eq_true, if_false, gap_of_forward forward]
    omega

theorem inShortRange_natCast (n : Nat) : inShortRange (n : Int) = decide (n ≤ 255) := by
  unfold inShortRange
  rw [Bool.eq_iff_iff]
  simp only [Bool.and_eq_true, decide_eq_true_eq]
  omega

theorem outOfReach_iff (sound : slot.Sound sizes.length index)
    (sized : sizes[index]? = some slot.size) :
    slot.outOfReach (startOffsets sizes) index = true ↔
      ∃ opcode target, slot.opcode = some opcode ∧ slot.target = some target ∧
        opcode.flow.isLong = false ∧ 255 < gap sizes index target.index := by
  unfold outOfReach
  cases chosen : slot.opcode with
  | none => simp
  | some opcode =>
    cases targeted : slot.target with
    | none => simp
    | some target =>
      simp [distance_eq_gap sound sized targeted, inShortRange_natCast]

/-- **A branch is made long if it is short, has a long form and cannot reach its label.** -/
theorem promotion?_eq_some_iff (sound : slot.Sound sizes.length index)
    (sized : sizes[index]? = some slot.size) {long : Opcode} :
    slot.promotion? (startOffsets sizes) index = some long ↔
      ∃ opcode target, slot.opcode = some opcode ∧ slot.target = some target ∧
        opcode.flow.isLong = false ∧ 255 < gap sizes index target.index ∧
        opcode.longTwin? = some long := by
  unfold promotion?
  constructor
  · intro promoted
    split at promoted
    · next far =>
      obtain ⟨opcode, target, chosen, targeted, short, wide⟩ := (outOfReach_iff sound sized).mp far
      rw [chosen] at promoted
      exact ⟨opcode, target, chosen, targeted, short, wide, promoted⟩
    · cases promoted
  · rintro ⟨opcode, target, chosen, targeted, short, wide, long⟩
    rw [if_pos ((outOfReach_iff sound sized).mpr ⟨opcode, target, chosen, targeted, short, wide⟩),
      chosen]
    exact long

end Measure

section Promote

variable (offsets : Array Nat) (index : Nat) (slot : Slot)

theorem promote_of_none (still : slot.promotion? offsets index = none) :
    slot.promote offsets index = slot := by
  unfold promote
  rw [still]

variable {offsets index slot} in
theorem growth_of_promotion? {long : Opcode} (grows : slot.promotion? offsets index = some long) :
    slot.target.isSome = true ∧
      ∃ opcode, slot.opcode = some opcode ∧ opcode.longTwin? = some long := by
  unfold promotion? at grows
  split at grows
  · next far =>
    refine ⟨?_, Option.bind_eq_some_iff.mp grows⟩
    unfold outOfReach at far
    split at far
    · next targeted => rw [targeted]; rfl
    · cases far
  · cases grows

theorem promote_of_some {long : Opcode} (grows : slot.promotion? offsets index = some long) :
    slot.promote offsets index = { slot with opcode := some long, size := slot.size + 1 } := by
  unfold promote
  rw [grows]

@[simp] theorem target_promote : (slot.promote offsets index).target = slot.target := by
  cases promoted : slot.promotion? offsets index with
  | none => rw [promote_of_none _ _ _ promoted]
  | some long => rw [promote_of_some _ _ _ promoted]

theorem size_le_promote : slot.size ≤ (slot.promote offsets index).size := by
  cases promoted : slot.promotion? offsets index with
  | none => rw [promote_of_none _ _ _ promoted]
  | some long =>
    rw [promote_of_some _ _ _ promoted]
    exact Nat.le_succ _

theorem Sound.promote {slot : Slot} {count index : Nat} (sound : slot.Sound count index)
    (offsets : Array Nat) : (slot.promote offsets index).Sound count index := by
  refine ⟨fun {opcode} chosen => ?_, fun targeted => ?_, fun targeted => ?_⟩
  · cases promoted : slot.promotion? offsets index with
    | none =>
      rw [promote_of_none _ _ _ promoted] at chosen
      exact sound.known chosen
    | some long =>
      rw [promote_of_some _ _ _ promoted] at chosen
      cases chosen
      obtain ⟨_, before, had, twin⟩ := growth_of_promotion? promoted
      exact (Opcode.longTwin?_mem (sound.known had) twin).1
  · rw [target_promote] at targeted
    exact sound.inside targeted
  · rw [target_promote] at targeted
    exact sound.side targeted

end Promote

end Slot

/-! ### All branches -/

namespace Layout

/-- The lengths of slots. -/
def sizes (slots : List Slot) : List Nat := slots.map Slot.size

/-- The slots after a pass. -/
def pass (slots : List Slot) : List Slot :=
  slots.mapIdx fun index slot => slot.promote (startOffsets (sizes slots)) index

/-- No slot needs a long form that it has. -/
def Settled (slots : List Slot) : Prop :=
  ∀ (index : Nat) (slot : Slot), slots[index]? = some slot →
    slot.promotion? (startOffsets (sizes slots)) index = none

/-- Every slot has a row and a target in the script, on the side that it names. -/
def Sound (slots : List Slot) : Prop :=
  ∀ (index : Nat) (slot : Slot), slots[index]? = some slot → slot.Sound slots.length index

variable {slots : List Slot} {index : Nat} {slot : Slot}

@[simp] theorem length_sizes (slots : List Slot) : (sizes slots).length = slots.length :=
  List.length_map ..

theorem getElem?_sizes (found : slots[index]? = some slot) :
    (sizes slots)[index]? = some slot.size := by
  rw [sizes, List.getElem?_map, found]
  rfl

@[simp] theorem length_pass (slots : List Slot) : (pass slots).length = slots.length :=
  List.length_mapIdx

theorem getElem?_pass (slots : List Slot) (index : Nat) :
    (pass slots)[index]? =
      slots[index]?.map fun slot => slot.promote (startOffsets (sizes slots)) index :=
  List.getElem?_mapIdx

theorem Sound.sound_slot (sound : Sound slots) (found : slots[index]? = some slot) :
    slot.Sound (sizes slots).length index := by
  rw [length_sizes]
  exact sound index slot found

theorem Sound.pass (sound : Sound slots) : Sound (pass slots) := by
  intro index slot found
  rw [getElem?_pass] at found
  obtain ⟨before, located, rfl⟩ := Option.map_eq_some_iff.mp found
  rw [length_pass]
  exact (sound index before located).promote _

/-- Slots only grow. -/
theorem sizes_le_pass (slots : List Slot) :
    List.Forall₂ (· ≤ ·) (sizes slots) (sizes (pass slots)) := by
  refine List.forall₂_iff_get.mpr ⟨by simp, fun index inside inside' => ?_⟩
  simp only [sizes, pass, List.get_eq_getElem, List.getElem_map, List.getElem_mapIdx]
  exact Slot.size_le_promote _ _ _

/-! ### Runs -/

theorem settled_iff (slots : List Slot) :
    Settled slots ↔ (slots.zipIdx.any fun (slot, index) =>
      (slot.promotion? (startOffsets (sizes slots)) index).isSome) = false := by
  rw [List.any_eq_false]
  simp only [Prod.forall, List.mem_zipIdx_iff_getElem?, Option.not_isSome_iff_eq_none]
  exact ⟨fun settled slot index found => settled index slot found,
    fun settled index slot found => settled slot index found⟩

instance (slots : List Slot) : Decidable (Settled slots) :=
  decidable_of_iff _ (settled_iff slots).symm

theorem settle_succ (budget done : Nat) (slots : List Slot) :
    settle (budget + 1) done slots =
      if Settled slots then
        some { slots, offsets := startOffsets (sizes slots), passes := done + 1 }
      else settle budget (done + 1) (pass slots) := by
  rw [settle]
  by_cases settled : Settled slots
  · have still := (settled_iff slots).mp settled
    rw [if_pos settled]
    simp only [sizes] at still
    simp only [still, Bool.false_eq_true, if_false]
    rfl
  · have moving := mt (settled_iff slots).mpr settled
    rw [if_neg settled]
    simp only [sizes, Bool.not_eq_false] at moving
    simp only [moving, if_true]
    rfl

/-- **The result of `settle` is the first settled iterate of `pass`**, if the budget reaches it. -/
theorem settle_eq_some_iff {budget done : Nat} {layout : Layout} :
    settle budget done slots = some layout ↔
      ∃ count < budget, Settled (pass^[count] slots) ∧
        (∀ earlier < count, ¬Settled (pass^[earlier] slots)) ∧
        layout = { slots := pass^[count] slots,
                   offsets := startOffsets (sizes (pass^[count] slots)),
                   passes := done + count + 1 } := by
  induction budget generalizing done slots with
  | zero =>
    constructor
    · intro settled
      cases settled
    · rintro ⟨count, impossible, _⟩
      cases impossible
  | succ budget ih =>
    rw [settle_succ]
    by_cases settled : Settled slots
    · rw [if_pos settled]
      constructor
      · intro same
        cases same
        exact ⟨0, Nat.succ_pos _, settled, fun _ before => absurd before (Nat.not_lt_zero _), rfl⟩
      · rintro ⟨count, _, _, first, rfl⟩
        cases count with
        | zero => rfl
        | succ count => exact absurd settled (first 0 (Nat.succ_pos _))
    · rw [if_neg settled, ih]
      constructor
      · rintro ⟨count, within, reached, first, rfl⟩
        refine ⟨count + 1, Nat.succ_lt_succ within, reached, ?_, ?_⟩
        · intro earlier before
          cases earlier with
          | zero => exact settled
          | succ earlier => exact first earlier (Nat.lt_of_succ_lt_succ before)
        · rw [Function.iterate_succ_apply, Nat.add_right_comm done 1 count,
            Nat.add_assoc done count 1]
      · rintro ⟨count, within, reached, first, rfl⟩
        cases count with
        | zero => exact absurd reached settled
        | succ count =>
          refine ⟨count, Nat.lt_of_succ_lt_succ within, reached, ?_, ?_⟩
          · intro earlier before
            exact first (earlier + 1) (Nat.succ_lt_succ before)
          · rw [Function.iterate_succ_apply, Nat.add_right_comm done 1 count,
            Nat.add_assoc done count 1]

/-- What a pass keeps, every number of passes keeps. -/
theorem iterate_pass {kept : List Slot → Prop} (step : ∀ slots, kept slots → kept (pass slots))
    (start : kept slots) (count : Nat) : kept (pass^[count] slots) := by
  induction count with
  | zero => exact start
  | succ count ih =>
    rw [Function.iterate_succ_apply']
    exact step _ ih

end Layout

end SceneScript
