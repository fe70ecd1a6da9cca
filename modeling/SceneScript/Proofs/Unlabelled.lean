/-
**Layout does not look at label numbers.**

A slot names its label by a number, but layout only reads the index and the side of the target. So
slots that differ in these numbers alone (`Slot.unlabelled`) go through the same passes and settle
in the same places.

* `Slot.promotion?_unlabelled`, `Slot.unlabelled_promote`: a branch is made long or left short
  whatever its label is called;
* `semiconj_unlabelled`: a pass commutes with forgetting the numbers;
* `settle_of_unlabelled_eq`: slots with the same unlabelled form settle in the same places, after
  the same number of passes;
* `Slot.Holds.unlabelled_eq`: the unlabelled form of a slot follows from its meaning and its row.
-/

import SceneScript.Proofs.Validation

namespace SceneScript

open Layout

namespace Slot

/-- A slot with the number of its label forgotten. -/
def unlabelled (slot : Slot) : Slot :=
  { slot with target := slot.target.map fun target => { target with label := 0 } }

@[simp] theorem opcode_unlabelled (slot : Slot) : slot.unlabelled.opcode = slot.opcode := rfl

theorem outOfReach_unlabelled (offsets : Array Nat) (index : Nat) (slot : Slot) :
    slot.unlabelled.outOfReach offsets index = slot.outOfReach offsets index := by
  obtain ⟨opcode, size, target⟩ := slot
  cases opcode <;> cases target <;> rfl

/-- **Whether a branch is made long does not depend on the number of its label.** -/
theorem promotion?_unlabelled (offsets : Array Nat) (index : Nat) (slot : Slot) :
    slot.unlabelled.promotion? offsets index = slot.promotion? offsets index := by
  rw [promotion?, outOfReach_unlabelled, opcode_unlabelled]
  rfl

theorem unlabelled_promote (offsets : Array Nat) (index : Nat) (slot : Slot) :
    (slot.promote offsets index).unlabelled = slot.unlabelled.promote offsets index := by
  unfold promote
  rw [promotion?_unlabelled]
  cases slot.promotion? offsets index <;> rfl

/-- **The unlabelled form of a slot follows from its meaning and its row.** -/
theorem Holds.unlabelled_eq {slot : Slot} {count index : Nat} {form : Opcode} {body : List UInt8}
    {place : Option Nat} (holds : slot.Holds index form body place)
    (sound : slot.Sound count index) :
    slot.unlabelled =
      { opcode := some form
        size := 1 + body.length + form.flow.destinationSize
        target := place.map fun target =>
          { label := 0, index := target, backward := decide (target ≤ index) } } := by
  have target : slot.unlabelled.target = place.map fun target =>
      { label := 0, index := target, backward := decide (target ≤ index) } := by
    rw [← holds.targeted, Option.map_map]
    refine Option.map_congr fun own targeted => ?_
    rw [Function.comp_apply, ← sound.side targeted]
  show { opcode := slot.opcode, size := slot.size, target := slot.unlabelled.target : Slot } = _
  rw [holds.chosen, holds.sized, target]

end Slot

namespace Layout

variable {slots slots' : List Slot}

@[simp] theorem sizes_map_unlabelled (slots : List Slot) :
    sizes (slots.map Slot.unlabelled) = sizes slots := by
  rw [sizes, sizes, List.map_map]
  rfl

theorem sizes_eq_of_unlabelled_eq (same : slots.map Slot.unlabelled = slots'.map Slot.unlabelled) :
    sizes slots = sizes slots' := by
  rw [← sizes_map_unlabelled slots, same, sizes_map_unlabelled]

/-- Slots at one place of lists with the same unlabelled form have the same unlabelled form. -/
theorem unlabelled_eq_of_found (same : slots.map Slot.unlabelled = slots'.map Slot.unlabelled)
    {index : Nat} {slot slot' : Slot} (found : slots[index]? = some slot)
    (found' : slots'[index]? = some slot') : slot.unlabelled = slot'.unlabelled := by
  have own := congrArg (fun list => list[index]?) same
  simpa [found, found'] using own

/-- **A pass commutes with forgetting the numbers.** -/
theorem semiconj_unlabelled : Function.Semiconj (List.map Slot.unlabelled) pass pass := by
  intro slots
  refine List.ext_getElem? fun index => ?_
  rw [List.getElem?_map, getElem?_pass, getElem?_pass, List.getElem?_map, Option.map_map,
    Option.map_map, sizes_map_unlabelled]
  congr 1
  funext slot
  exact slot.unlabelled_promote _ index

theorem iterate_pass_unlabelled_eq
    (same : slots.map Slot.unlabelled = slots'.map Slot.unlabelled) (count : Nat) :
    (pass^[count] slots).map Slot.unlabelled = (pass^[count] slots').map Slot.unlabelled := by
  have run := semiconj_unlabelled.iterate_right count
  rw [run.eq slots, run.eq slots', same]

theorem settled_of_unlabelled_eq (same : slots.map Slot.unlabelled = slots'.map Slot.unlabelled)
    (settled : Settled slots) : Settled slots' := by
  intro index slot' found'
  have inside : index < slots.length := by
    rw [← List.length_map Slot.unlabelled, same, List.length_map]
    exact (List.getElem?_eq_some_iff.mp found').1
  have found := List.getElem?_eq_getElem inside
  rw [← Slot.promotion?_unlabelled, ← unlabelled_eq_of_found same found found',
    Slot.promotion?_unlabelled, ← sizes_eq_of_unlabelled_eq same]
  exact settled index _ found

/-- **Slots with the same unlabelled form settle in the same places**, after the same number of
passes, if the budget reaches that far. -/
theorem settle_of_unlabelled_eq (same : slots.map Slot.unlabelled = slots'.map Slot.unlabelled)
    {budget budget' : Nat} {layout : Layout} (settled : settle budget 0 slots = some layout)
    (enough : layout.passes ≤ budget') :
    ∃ layout', settle budget' 0 slots' = some layout' ∧
      layout.slots.map Slot.unlabelled = layout'.slots.map Slot.unlabelled ∧
      layout'.offsets = layout.offsets ∧ layout'.passes = layout.passes := by
  obtain ⟨count, _, still, first, rfl⟩ := settle_eq_some_iff.mp settled
  have run := iterate_pass_unlabelled_eq same count
  have places := sizes_eq_of_unlabelled_eq run
  refine ⟨_, settle_eq_some_iff.mpr ⟨count, ?_, settled_of_unlabelled_eq run still, ?_, rfl⟩, run,
    by rw [places], rfl⟩
  · simp only at enough
    omega
  · intro earlier before again
    exact first earlier before
      (settled_of_unlabelled_eq (iterate_pass_unlabelled_eq same earlier).symm again)

end Layout

end SceneScript
