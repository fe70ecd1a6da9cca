/-
**Writing a layout.**

A slot whose form fits into the layout is written: the resolved instruction holds the number that
leads to the target, and its bytes have the length of the slot.

* `destinationValue_eq_held`: a branch gets the number that leads to its target;
* `resolved_resolve`: the instruction of a slot that fits is a written one;
* `emitSlot_of_fits`: so the slot is written, in as many bytes as it has;
* `written_of_emit`, `exists_emit`: a layout is written if each of its slots is;
* `WrittenAt`, `written_of_build`: what is written of a script are its instructions, each with its
  meaning and in a form that fits among the lengths of the others;
* `slots_of_build`: each of them has the opcode and the length of its slot;
* `length_le_of_build`: together they are at most as long as a script may be.
-/

import SceneScript.Proofs.Carried

namespace SceneScript.Assembly

open Layout
open Script (canonicalCode)

section Slot

variable {script : Script} {instruction : Instruction} {opcode form : Opcode} {body : List UInt8}
  {place : Option Nat} {sizes : List Nat} {index : Nat} {slot : Slot}

/-- What a branch holds is a number of 32 bits with a sign. -/
theorem toInt_held {width : BranchWidth} (branches : form.flow.width? = some width) {target : Nat}
    (reaches : Reaches sizes index form.flow target) :
    (Int32.ofInt (held sizes index form.flow target)).toInt =
      held sizes index form.flow target := by
  have small := held_lt branches reaches
  have bound : 256 ^ width.bytes ≤ 65536 := by cases width <;> decide
  exact Int32.toInt_ofInt_of_le (by omega) (by omega)

theorem resolve_of_target {offsets : Array Nat} {target : Target} {position : Nat}
    (targeted : slot.target = some target) (operand : form.branchOperand? = some position)
    (operands : List Operand) :
    resolve offsets index slot form operands =
      { opcode := form.code
        operands := operands.set position
          (.offset (Int32.ofInt (destinationValue offsets index slot form target))) } := by
  simp only [resolve, targeted, operand]

theorem destinationValue_eq_held (sound : slot.Sound sizes.length index)
    (sized : sizes[index]? = some slot.size) {target : Target}
    (targeted : slot.target = some target) :
    destinationValue (startOffsets sizes) index slot form target =
      held sizes index form.flow target.index := by
  rw [destinationValue, Slot.distance_eq_gap sound sized targeted, held,
    getD_startOffsets (sound.inside targeted)]
  split <;> rfl

/-- **The instruction of a slot that fits is a written one**, with the meaning of the slot and the
number that leads to its target. -/
theorem resolved_resolve (denotes : script.Denotes instruction opcode body place)
    (kin : canonicalCode form = canonicalCode opcode) (holds : slot.Holds index form body place)
    (sound : slot.Sound sizes.length index) (fits : Fits sizes index form body place) :
    (resolve (startOffsets sizes) index slot form instruction.operands).Resolved form body
      (place.map (held sizes index form.flow)) := by
  have leading := Opcode.leading_eq_of_kin holds.member denotes.member kin
  have targets := holds.hasTarget_eq
  have operand := Opcode.branchOperand?_eq holds.member
  have known := Opcode.ofCode?_code holds.member
  cases denotes with
  | plain _ still written =>
    have untargeted := Option.map_eq_none_iff.mp holds.targeted
    rw [← leading] at written
    simp only [resolve, untargeted]
    exact .plain known targets written
  | @branch lead label target _ _ written operands _ _ =>
    obtain ⟨width, branches⟩ := Option.isSome_iff_exists.mp targets
    obtain ⟨own, targeted, rfl⟩ := Option.map_eq_some_iff.mp holds.targeted
    have reaches := fits.reaches own.index rfl
    have value : destinationValue (startOffsets sizes) index slot form own = _ :=
      destinationValue_eq_held sound (holds.sized ▸ fits.sized) targeted
    rw [← leading] at written
    rw [branches, Option.map_some, written.length_eq] at operand
    rw [resolve_of_target targeted operand, value, operands]
    refine .branch known branches written ?_ (toInt_held branches reaches)
      (held_lt branches reaches)
    simp

/-- **A slot that fits is written**, in as many bytes as it has. -/
theorem emitSlot_of_fits (denotes : script.Denotes instruction opcode body place)
    (kin : canonicalCode form = canonicalCode opcode) (holds : slot.Holds index form body place)
    (sound : slot.Sound sizes.length index) (fits : Fits sizes index form body place) :
    ∃ resolved own, emitSlot (startOffsets sizes) index slot instruction = .ok (resolved, own) ∧
      resolved.encode = .ok own ∧ own.length = slot.size ∧
      resolved.Resolved form body (place.map (held sizes index form.flow)) := by
  have resolved := resolved_resolve denotes kin holds sound fits
  obtain ⟨own, encoded, count⟩ :=
    Instruction.exists_encode_iff.mpr ⟨form, body, _, resolved, holds.sized⟩
  refine ⟨_, own, ?_, encoded, count, resolved⟩
  simp only [emitSlot, holds.chosen, encoded]

end Slot

/-! ### Whole layouts -/

variable {layout : Layout} {instructions : List Instruction}

/-- **A layout is written slot by slot.** -/
theorem written_of_emit {assembly : Assembly} (emitted : emit layout instructions = .ok assembly)
    (lengths : layout.slots.length = instructions.length) :
    ∃ written : List (Instruction × List UInt8),
      assembly.bytes = written.flatMap Prod.snd ∧ assembly.instructions = written.map Prod.fst ∧
        assembly.offsets = layout.offsets ∧ written.length = layout.slots.length ∧
        ∀ (index : Nat) (slot : Slot) (instruction : Instruction),
          layout.slots[index]? = some slot → instructions[index]? = some instruction →
          ∃ one, written[index]? = some one ∧
            emitSlot layout.offsets index slot instruction = .ok one := by
  obtain ⟨written, each, same⟩ := Traversal.bind_eq_ok_iff.mp emitted
  cases same
  obtain ⟨count, pairs⟩ :=
    Traversal.forall₂_iff_getElem?.mp (Traversal.mapM_eq_ok_iff.mp each)
  rw [List.length_zipIdx, List.length_zip, lengths, Nat.min_self] at count
  refine ⟨written, rfl, rfl, rfl, count.symm.trans lengths.symm, ?_⟩
  intro index slot instruction found found'
  have inside : index < written.length := by
    rw [← count]
    exact (List.getElem?_eq_some_iff.mp found').1
  refine ⟨written[index], List.getElem?_eq_getElem inside, ?_⟩
  refine pairs index ((slot, instruction), index) _ ?_ (List.getElem?_eq_getElem inside)
  have zipped : (layout.slots.zip instructions)[index]? = some (slot, instruction) :=
    List.getElem?_zip_eq_some.mpr ⟨found, found'⟩
  rw [List.getElem?_zipIdx, zipped, Option.map_some, Nat.zero_add]

/-- A layout is written if each of its slots is. -/
theorem exists_emit
    (each : ∀ (index : Nat) (slot : Slot) (instruction : Instruction),
      layout.slots[index]? = some slot → instructions[index]? = some instruction →
      ∃ one, emitSlot layout.offsets index slot instruction = .ok one) :
    ∃ assembly, emit layout instructions = .ok assembly := by
  have results : ∃ written, (layout.slots.zip instructions).zipIdx.mapM
      (fun item => emitSlot layout.offsets item.2 item.1.1 item.1.2) = .ok written := by
    refine Traversal.exists_mapM_ok ?_
    rintro ⟨⟨slot, instruction⟩, index⟩ among
    obtain ⟨found, found'⟩ := List.getElem?_zip_eq_some.mp (List.mem_zipIdx_iff_getElem?.mp among)
    exact each index slot instruction found found'
  obtain ⟨written, result⟩ := results
  exact ⟨_, Traversal.bind_eq_ok_iff.mpr ⟨written, result, rfl⟩⟩

end SceneScript.Assembly

namespace SceneScript.Script

open Layout Assembly

variable {script : Script} {config : AssemblyConfig} {slots : List Slot}

/-- An instruction of a script as it is written among instructions of given lengths: with its
meaning, in a form that fits there, and with the number that leads to its target. -/
def WrittenAt (script : Script) (lengths : List Nat) (index : Nat)
    (one : Instruction × List UInt8) : Prop :=
  one.1.encode = .ok one.2 ∧ lengths[index]? = some one.2.length ∧
    ∃ instruction opcode body place form, script.instructions[index]? = some instruction ∧
      script.Denotes instruction opcode body place ∧
      canonicalCode form = canonicalCode opcode ∧ Fits lengths index form body place ∧
      one.1.Resolved form body (place.map (held lengths index form.flow))

/-- Checked slots are written, in their opcodes and in as many bytes as they have. -/
theorem Checked.emitSlot (checked : script.Checked slots) {index : Nat} {slot : Slot}
    (found : slots[index]? = some slot) {instruction : Instruction}
    (listed : script.instructions[index]? = some instruction) :
    ∃ one, Assembly.emitSlot (startOffsets (sizes slots)) index slot instruction = .ok one ∧
      one.1.opcode? = slot.opcode ∧ script.WrittenAt (sizes slots) index one := by
  obtain ⟨own, opcode, body, place, form, listed', denotes, holds, kin, fits⟩ := checked.fits found
  rw [listed] at listed'
  cases listed'
  obtain ⟨resolved, bytes, accepted, encoded, count, parts⟩ :=
    emitSlot_of_fits denotes kin holds (checked.sound.sound_slot found) fits
  refine ⟨(resolved, bytes), accepted, parts.known.trans holds.chosen.symm, encoded, ?_, ?_⟩
  · rw [getElem?_sizes found, count]
  · exact ⟨instruction, opcode, body, place, form, listed, denotes, kin, fits, parts⟩

variable {assembly : Assembly}

/-- **What is written of checked slots**: one instruction for each, in its opcode and its length. -/
theorem Checked.exists_written {layout : Layout} (checked : script.Checked layout.slots)
    (offsets : layout.offsets = startOffsets (sizes layout.slots))
    (emitted : Assembly.emit layout script.instructions = .ok assembly) :
    ∃ written : List (Instruction × List UInt8),
      assembly.bytes = written.flatMap Prod.snd ∧ assembly.instructions = written.map Prod.fst ∧
        assembly.offsets = layout.offsets ∧
        (written.map fun one => one.2.length) = sizes layout.slots ∧
        ∀ (index : Nat) (slot : Slot), layout.slots[index]? = some slot →
          ∃ one, written[index]? = some one ∧ one.1.opcode? = slot.opcode ∧
            script.WrittenAt (sizes layout.slots) index one := by
  have lengths := checked.carries.length_eq
  obtain ⟨written, bytes, instructions, same, count, each⟩ := written_of_emit emitted lengths
  have parts : ∀ (index : Nat) (slot : Slot), layout.slots[index]? = some slot →
      ∃ one, written[index]? = some one ∧ one.1.opcode? = slot.opcode ∧
        script.WrittenAt (sizes layout.slots) index one := by
    intro index slot found
    have inside := (List.getElem?_eq_some_iff.mp found).1
    have listed := List.getElem?_eq_getElem (lengths ▸ inside)
    obtain ⟨own, accepted, opcode, writtenAt⟩ := checked.emitSlot found listed
    obtain ⟨one, found', accepted'⟩ := each index slot _ found listed
    rw [offsets, accepted] at accepted'
    cases accepted'
    exact ⟨own, found', opcode, writtenAt⟩
  refine ⟨written, bytes, instructions, same, List.ext_getElem? fun index => ?_, parts⟩
  rw [List.getElem?_map]
  by_cases inside : index < layout.slots.length
  · obtain ⟨one, found, _, _, sized, _⟩ := parts index _ (List.getElem?_eq_getElem inside)
    rw [found, Option.map_some, sized]
  · have outside := Nat.le_of_not_lt inside
    rw [List.getElem?_eq_none (count ▸ outside), List.getElem?_eq_none]
    · rfl
    · rw [length_sizes]
      exact outside

/-- **What is written of a script**: its instructions, one right behind the other, in the lengths of
a layout that comes from its slots. -/
theorem written_of_build (built : script.build config = .ok assembly) :
    ∃ written : List (Instruction × List UInt8),
      assembly.bytes = written.flatMap Prod.snd ∧ assembly.instructions = written.map Prod.fst ∧
        written.length = script.size ∧
        assembly.offsets = startOffsets (written.map fun one => one.2.length) ∧
        (∃ count, (written.map fun one => one.2.length) =
          sizes (pass^[count] (script.slots config))) ∧
        ∀ (index : Nat) (one : Instruction × List UInt8), written[index]? = some one →
          script.WrittenAt (written.map fun one => one.2.length) index one := by
  obtain ⟨passes, layout, slots, offsets, checked, emitted⟩ := checked_of_build built
  obtain ⟨written, bytes, instructions, same, sizes_eq, each⟩ :=
    checked.exists_written offsets emitted
  have count : written.length = layout.slots.length := by
    rw [← length_sizes, ← sizes_eq, List.length_map]
  refine ⟨written, bytes, instructions, count.trans checked.carries.length_eq, ?_, ⟨passes, ?_⟩,
    fun index one found => ?_⟩
  · rw [sizes_eq]
    exact same.trans offsets
  · rw [sizes_eq, slots]
  · have inside := (List.getElem?_eq_some_iff.mp found).1
    obtain ⟨own, found', _, writtenAt⟩ := each index _ (List.getElem?_eq_getElem (count ▸ inside))
    obtain rfl := Option.some.inj (found.symm.trans found')
    rw [sizes_eq]
    exact writtenAt

/-- **How a script is written, slot by slot**: the bytes are as long as the slots together, and each
instruction has the opcode and the length of its slot. -/
theorem slots_of_build (built : script.build config = .ok assembly) :
    ∃ count slots, slots = pass^[count] (script.slots config) ∧ script.Checked slots ∧
      assembly.bytes.length = (sizes slots).sum ∧
      ∀ {index : Nat} {slot : Slot}, slots[index]? = some slot →
        ∃ one own, assembly.instructions[index]? = some one ∧ one.opcode? = slot.opcode ∧
          one.encode = .ok own ∧ own.length = slot.size := by
  obtain ⟨count, layout, slots, offsets, checked, emitted⟩ := checked_of_build built
  obtain ⟨written, bytes, instructions, _, sizes_eq, each⟩ :=
    checked.exists_written offsets emitted
  refine ⟨count, layout.slots, slots, checked, ?_, fun {index slot} found => ?_⟩
  · rw [bytes, List.length_flatMap, ← sizes_eq]
  · obtain ⟨one, found', opcode, encoded, sized, _⟩ := each index slot found
    refine ⟨one.1, one.2, ?_, opcode, encoded, ?_⟩
    · rw [instructions, List.getElem?_map, found', Option.map_some]
    · exact Option.some.inj (sized.symm.trans (getElem?_sizes found))

/-- An assembly is at most as long as a script may be. -/
theorem length_le_of_build (built : script.build config = .ok assembly) :
    assembly.bytes.length ≤ maxScriptLength := by
  obtain ⟨_, _, _, checked, total, _⟩ := slots_of_build built
  exact total ▸ checked.small

end SceneScript.Script
