/-
**Meanings carried through layout.**

The slots of a script that nothing is wrong with hold its meanings (`Script.Carries`). Layout passes
keep that: a branch that is made long holds the same meaning in another form. Settled slots that
pass the checks behind layout are a layout of the script.

* `Slot.Holds.promote`: what a pass does to a slot keeps its meaning;
* `carries_slots`, `Carries.pass`: the slots of a script carry its meanings, before layout and after
  every pass;
* `Checked.fits`: if all branches reach their labels and the script is not too long, every form
  fits into the layout;
* `checked_of_settle`, `checked_of_build`: slots that pass the checks behind layout are such slots,
  and they are what is written.
-/

import SceneScript.Proofs.Findings
import SceneScript.Proofs.Validation

namespace SceneScript

open Layout
open Script (canonicalCode)

namespace Flow

variable {flow : Flow}

theorem destinationSize_of_isLong (long : flow.isLong = true) : flow.destinationSize = 2 :=
  destinationSize_of_width? (of_decide_eq_true long)

theorem destinationSize_of_short (branches : flow.hasTarget = true) (short : flow.isLong = false) :
    flow.destinationSize = 1 := by
  obtain ⟨width, known⟩ := Option.isSome_iff_exists.mp branches
  cases width with
  | short => exact destinationSize_of_width? known
  | long =>
    rw [isLong, known] at short
    cases short

end Flow

/-- **What a pass does to a slot keeps its meaning.** -/
theorem Slot.Holds.promote {slot : Slot} {index : Nat} {form : Opcode} {body : List UInt8}
    {place : Option Nat} (holds : slot.Holds index form body place) (offsets : Array Nat) :
    ∃ form', (slot.promote offsets index).Holds index form' body place ∧
      canonicalCode form' = canonicalCode form := by
  cases grows : slot.promotion? offsets index with
  | none =>
    rw [promote_of_none _ _ _ grows]
    exact ⟨form, holds, rfl⟩
  | some long =>
    rw [promote_of_some _ _ _ grows]
    obtain ⟨targeted, before, had, twin⟩ := growth_of_promotion? grows
    rw [holds.chosen] at had
    cases had
    obtain ⟨longRow, longFlow, kin⟩ := Opcode.longTwin?_mem holds.member twin
    have branches : form.flow.hasTarget = true := by
      rw [holds.hasTarget_eq, ← holds.targeted, Option.isSome_map, targeted]
    have longBranches := (Opcode.hasTarget_eq_of_kin longRow holds.member kin).trans branches
    have short : form.flow.isLong = false := by
      refine Bool.eq_false_iff.mpr fun isLong => ?_
      rw [Opcode.longTwin?_eq_none_of_isLong isLong] at twin
      cases twin
    refine ⟨long, ⟨rfl, longRow, holds.targeted, ?_, fun target aimed => ?_, ?_⟩, kin⟩
    · rw [longBranches, ← branches, holds.hasTarget_eq]
    · rw [longFlow, Flow.isBackward_resize]
      exact holds.side target aimed
    · rw [holds.sized, Flow.destinationSize_of_short branches short,
        Flow.destinationSize_of_isLong (Opcode.isLong_of_longTwin? holds.member twin)]

namespace Script

/-- Slots that hold the meanings of a script's instructions. -/
structure Carries (script : Script) (slots : List Slot) : Prop where
  length_eq : slots.length = script.size
  holds : ∀ {index : Nat} {slot : Slot}, slots[index]? = some slot →
    ∃ instruction opcode body place form, script.instructions[index]? = some instruction ∧
      script.Denotes instruction opcode body place ∧ slot.Holds index form body place ∧
      canonicalCode form = canonicalCode opcode

variable {script : Script} {config : AssemblyConfig} {slots : List Slot}

/-- The slots of a script that nothing is wrong with hold its meanings. -/
theorem carries_slots (nothing : script.findings config = []) :
    script.Carries (script.slots config) := by
  refine ⟨length_slots config script, fun {index slot} found => ?_⟩
  rw [getElem?_slots] at found
  obtain ⟨instruction, listed, rfl⟩ := Option.map_eq_some_iff.mp found
  have sound := (findings_eq_nil_iff.mp nothing).2 index instruction listed
  obtain ⟨opcode, body, place, denotes, aims⟩ := Slot.denotes_of_prepare sound
  obtain ⟨_, form, holds, kin, _⟩ := Slot.prepare_of_denotes denotes aims
  exact ⟨instruction, opcode, body, place, form, listed, denotes, holds, kin⟩

/-- A layout pass keeps the meanings. -/
theorem Carries.pass (carries : script.Carries slots) : script.Carries (pass slots) := by
  refine ⟨(length_pass slots).trans carries.length_eq, fun {index slot} found => ?_⟩
  rw [getElem?_pass] at found
  obtain ⟨before, located, rfl⟩ := Option.map_eq_some_iff.mp found
  obtain ⟨instruction, opcode, body, place, form, listed, denotes, holds, kin⟩ :=
    carries.holds located
  obtain ⟨form', holds', kin'⟩ := holds.promote (startOffsets (sizes slots))
  exact ⟨instruction, opcode, body, place, form', listed, denotes, holds', kin'.trans kin⟩

/-- Slots of a script that pass the checks behind layout. -/
structure Checked (script : Script) (slots : List Slot) : Prop where
  carries : script.Carries slots
  sound : Layout.Sound slots
  reached : ∀ (index : Nat) (slot : Slot), slots[index]? = some slot →
    slot.outOfReach (startOffsets (sizes slots)) index = false
  small : (sizes slots).sum ≤ maxScriptLength

variable {index : Nat} {slot : Slot}

/-- A branch of checked slots can hold its target. -/
theorem Checked.reaches (checked : script.Checked slots) (found : slots[index]? = some slot)
    {form : Opcode} {body : List UInt8} {target : Nat}
    (holds : slot.Holds index form body (some target)) (inside : target ≤ (sizes slots).length) :
    Reaches (sizes slots) index form.flow target := by
  obtain ⟨own, targeted, same⟩ := Option.map_eq_some_iff.mp holds.targeted
  have small := checked.small
  unfold Reaches
  cases long : form.flow.isLong with
  | true =>
    have total := offsetAt_le_offsetAt (sizes slots) inside
    rw [offsetAt_length] at total
    rw [maxScriptLength] at small
    rw [if_pos rfl]
    omega
  | false =>
    have near : gap (sizes slots) index target ≤ 255 := by
      by_contra far
      have out := (Slot.outOfReach_iff (checked.sound.sound_slot found) (getElem?_sizes found)).mpr
        ⟨form, own, holds.chosen, targeted, long, by rw [same]; omega⟩
      rw [checked.reached index slot found] at out
      cases out
    rw [if_neg Bool.false_ne_true, holds.side target rfl]
    refine ⟨Nat.lt_succ_of_le near, ?_⟩
    by_cases before : target ≤ index
    · simp only [before, decide_true, if_true]
      omega
    · simp only [before, decide_false, Bool.false_eq_true, if_false]
      omega

/-- **The forms of checked slots fit into the layout.** -/
theorem Checked.fits (checked : script.Checked slots) (found : slots[index]? = some slot) :
    ∃ instruction opcode body place form, script.instructions[index]? = some instruction ∧
      script.Denotes instruction opcode body place ∧ slot.Holds index form body place ∧
      canonicalCode form = canonicalCode opcode ∧ Fits (sizes slots) index form body place := by
  obtain ⟨instruction, opcode, body, place, form, listed, denotes, holds, kin⟩ :=
    checked.carries.holds found
  have inside : ∀ target ∈ place, target ≤ (sizes slots).length := by
    rw [length_sizes, checked.carries.length_eq]
    exact denotes.place_le
  refine ⟨instruction, opcode, body, place, form, listed, denotes, holds, kin, ?_, inside, ?_⟩
  · rw [← holds.sized]
    exact getElem?_sizes found
  · rintro target rfl
    exact checked.reaches found holds (inside target rfl)

/-- Checked slots are a layout of their script. -/
theorem Checked.laidOut (checked : script.Checked slots) : script.LaidOut (sizes slots) := by
  have lengths := checked.carries.length_eq
  refine ⟨(length_sizes slots).trans lengths, fun {index instruction} listed => ?_⟩
  have inside : index < slots.length := by
    rw [lengths]
    exact (List.getElem?_eq_some_iff.mp listed).1
  obtain ⟨own, opcode, body, place, form, listed', denotes, holds, kin, fits⟩ :=
    checked.fits (List.getElem?_eq_getElem inside)
  obtain rfl := Option.some.inj (listed.symm.trans listed')
  exact ⟨opcode, body, place, form, denotes, holds.member, kin, fits⟩

/-- **Slots that settle and pass the checks behind layout are checked.** -/
theorem checked_of_settle (nothing : script.findings config = []) {limit : Nat} {layout : Layout}
    (settled : settle limit 0 (script.slots config) = some layout)
    (reached : Assembly.unreached script.labels layout = [])
    (small : Assembly.oversize layout = []) :
    layout.offsets = startOffsets (sizes layout.slots) ∧ script.Checked layout.slots := by
  obtain ⟨count, _, _, _, rfl⟩ := settle_eq_some_iff.mp settled
  refine ⟨rfl, ?_, ?_, unreached_eq_nil_iff.mp reached, ?_⟩
  · exact iterate_pass (fun _ carries => carries.pass) (carries_slots nothing) count
  · exact iterate_pass (fun _ sound => sound.pass) (sound_slots config script) count
  · rw [oversize_eq_nil_iff, Layout.total, back?_startOffsets] at small
    exact small

/-- **A script that is built has checked slots**, after some number of passes, and they are what is
written. -/
theorem checked_of_build {assembly : Assembly} (built : script.build config = .ok assembly) :
    ∃ count layout, layout.slots = Layout.pass^[count] (script.slots config) ∧
      layout.offsets = startOffsets (sizes layout.slots) ∧ script.Checked layout.slots ∧
      Assembly.emit layout script.instructions = .ok assembly := by
  obtain ⟨layout, settled, nothing, reached, small, emitted⟩ := build_eq_ok_iff.mp built
  obtain ⟨count, _, _, _, same⟩ := settle_eq_some_iff.mp settled
  obtain ⟨offsets, checked⟩ := checked_of_settle nothing settled reached small
  exact ⟨count, layout, by rw [same], offsets, checked, emitted⟩

end Script

end SceneScript
