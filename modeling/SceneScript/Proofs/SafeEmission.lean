/-
**Writing cannot fail once the checks have passed.**

The operands of an instruction are checked against its short form, before layout; what is written is
another form, with a number that depends on the final places. The five checks together
(`Script.Validated`) rule out every way in which that can go wrong (`Assembly.Writable`): each slot
has an opcode, what it looks up is there, the number of a branch fits into 32 bits, and the
resolved instruction can be encoded.

* `build_eq_ok_iff_validated`: a script is built if the checks find nothing and it can be written;
* `Validated.checked`: slots that pass the checks hold the meanings of the script and fit;
* `Assembly.exists_destination`: the number of a branch that fits is exact;
* `Checked.writable`: such slots can be written;
* `emit_of_validated`: so a script that passes the checks is written.
-/

import SceneScript.Proofs.Reassembly

namespace SceneScript

open Layout
open Script (canonicalCode)

/-- The checks before writing find nothing in a script, and its slots settle in a layout. -/
structure Script.Validated (script : Script) (config : AssemblyConfig) (layout : Layout) :
    Prop where
  labels : Assembly.duplicateLabels script.labels = []
  prepared : ∀ {index : Nat} {instruction : Instruction},
    script.instructions[index]? = some instruction →
    (Slot.prepare config script.labels script.size index instruction).2 = []
  settled : settle (passLimit config script.size) 0 (script.slots config) = some layout
  reached : Assembly.unreached script.labels layout = []
  small : Assembly.oversize layout = []

/-- Nothing goes wrong when a slot is written: it has an opcode, the instruction that it is resolved
to can be encoded, and if it has a target, then the operand that is replaced and the places that are
looked up are there, and the number that is put into the operand is the one that leads to the
target. -/
structure Assembly.Writable (offsets : Array Nat) (index : Nat) (slot : Slot)
    (instruction : Instruction) (opcode : Opcode) : Prop where
  chosen : slot.opcode = some opcode
  encoded : ∃ bytes, (resolve offsets index slot opcode instruction.operands).encode = .ok bytes
  inside : index < offsets.size
  destination : ∀ {target : Target}, slot.target = some target →
    target.index < offsets.size ∧
      ∃ place value, opcode.branchOperand? = some place ∧ place < instruction.operands.length ∧
        (resolve offsets index slot opcode instruction.operands).operands[place]? =
          some (.offset value) ∧
        value.toInt = destinationValue offsets index slot opcode target

namespace Assembly

/-- The destination of a slot that fits has its operand in the instruction, and the number that is
put there is the one that leads to the target. -/
theorem exists_destination {script : Script} {instruction : Instruction} {opcode form : Opcode}
    {body : List UInt8} {place : Option Nat} {sizes : List Nat} {index : Nat} {slot : Slot}
    (denotes : script.Denotes instruction opcode body place)
    (kin : canonicalCode form = canonicalCode opcode) (holds : slot.Holds index form body place)
    (sound : slot.Sound sizes.length index) (fits : Fits sizes index form body place)
    {target : Target} (targeted : slot.target = some target) :
    ∃ position value, form.branchOperand? = some position ∧
      position < instruction.operands.length ∧
      (resolve (startOffsets sizes) index slot form instruction.operands).operands[position]? =
        some (.offset value) ∧
      value.toInt = destinationValue (startOffsets sizes) index slot form target := by
  have leading := Opcode.leading_eq_of_kin holds.member denotes.member kin
  obtain rfl : some target.index = place := by
    rw [← holds.targeted, targeted, Option.map_some]
  obtain ⟨width, branches⟩ := Option.isSome_iff_exists.mp holds.hasTarget_eq
  obtain ⟨label, named, _⟩ := denotes.exists_label
  have last := ((Instruction.target?_eq_some_iff denotes.known).mp named).2
  rw [← leading] at last
  have present := (List.getElem?_eq_some_iff.mp last).1
  have operand : form.branchOperand? = some form.leading.length := by
    rw [Opcode.branchOperand?_eq holds.member, branches, Option.map_some]
  have value : destinationValue (startOffsets sizes) index slot form target = _ :=
    destinationValue_eq_held sound (holds.sized ▸ fits.sized) targeted
  refine ⟨form.leading.length, Int32.ofInt (held sizes index form.flow target.index), operand,
    present, ?_, ?_⟩
  · rw [resolve_of_target targeted operand, List.getElem?_set_self present, value]
  · rw [value, toInt_held branches (fits.reaches target.index rfl)]

end Assembly

namespace Script

variable {script : Script} {config : AssemblyConfig} {layout : Layout} {slots : List Slot}

/-- **A script is built** if the checks find nothing and it can be written. -/
theorem build_eq_ok_iff_validated {assembly : Assembly} :
    script.build config = .ok assembly ↔
      ∃ layout, script.Validated config layout ∧
        Assembly.emit layout script.instructions = .ok assembly := by
  rw [build_eq_ok_iff]
  refine exists_congr fun layout => ?_
  rw [findings_eq_nil_iff, ← duplicateLabels_eq_nil_iff]
  constructor
  · rintro ⟨settled, ⟨labels, prepared⟩, reached, small, emitted⟩
    exact ⟨⟨labels, fun {index instruction} => prepared index instruction, settled, reached, small⟩,
      emitted⟩
  · rintro ⟨⟨labels, prepared, settled, reached, small⟩, emitted⟩
    exact ⟨settled, ⟨labels, fun _ _ => prepared⟩, reached, small, emitted⟩

/-- Slots that pass the checks hold the meanings of the script and fit into the layout. -/
theorem Validated.checked (validated : script.Validated config layout) :
    layout.offsets = startOffsets (sizes layout.slots) ∧ script.Checked layout.slots := by
  have nothing : script.findings config = [] :=
    findings_eq_nil_iff.mpr ⟨(duplicateLabels_eq_nil_iff script).mp validated.labels,
      fun _ _ => validated.prepared⟩
  exact checked_of_settle nothing validated.settled validated.reached validated.small

/-- **Checked slots can be written.** -/
theorem Checked.writable (checked : script.Checked slots) {index : Nat} {slot : Slot}
    (found : slots[index]? = some slot) {instruction : Instruction}
    (listed : script.instructions[index]? = some instruction) :
    ∃ opcode, Assembly.Writable (startOffsets (sizes slots)) index slot instruction opcode := by
  obtain ⟨_, opcode, body, place, form, listed', denotes, holds, kin, fits⟩ := checked.fits found
  obtain rfl := Option.some.inj (listed.symm.trans listed')
  have sound := checked.sound.sound_slot found
  have resolved := Assembly.resolved_resolve denotes kin holds sound fits
  obtain ⟨bytes, encoded, _⟩ := Instruction.exists_encode_iff.mpr ⟨form, body, _, resolved, rfl⟩
  have inside := (List.getElem?_eq_some_iff.mp found).1
  refine ⟨form, holds.chosen, ⟨bytes, encoded⟩, ?_, fun targeted => ⟨?_, ?_⟩⟩
  · rw [size_startOffsets, length_sizes]
    omega
  · rw [size_startOffsets]
    exact Nat.lt_succ_of_le (sound.inside targeted)
  · exact Assembly.exists_destination denotes kin holds sound fits targeted

/-- **A script that passes the checks is written**, and the assembly is what it is built to. There
is a slot for every instruction, and nothing goes wrong at any of them. -/
theorem emit_of_validated (validated : script.Validated config layout) :
    (∃ assembly, Assembly.emit layout script.instructions = .ok assembly ∧
      script.build config = .ok assembly) ∧
    layout.slots.length = script.size ∧
    ∀ {index : Nat} {slot : Slot} {instruction : Instruction},
      layout.slots[index]? = some slot → script.instructions[index]? = some instruction →
      ∃ opcode, Assembly.Writable layout.offsets index slot instruction opcode := by
  obtain ⟨offsets, checked⟩ := validated.checked
  refine ⟨?_, checked.carries.length_eq, fun {index slot instruction} found listed => ?_⟩
  · obtain ⟨assembly, emitted⟩ := checked.exists_emit offsets
    exact ⟨assembly, emitted, build_eq_ok_iff_validated.mpr ⟨layout, validated, emitted⟩⟩
  · rw [offsets]
    exact checked.writable found listed

theorem emit_of_validated_leap :
    ∃ layout, leap.Validated {} layout ∧
      (∃ assembly, Assembly.emit layout leap.instructions = .ok assembly ∧
        leap.build {} = .ok assembly) ∧
      layout.slots.length = leap.size ∧
      ∀ {index : Nat} {slot : Slot} {instruction : Instruction},
        layout.slots[index]? = some slot → leap.instructions[index]? = some instruction →
        ∃ opcode, Assembly.Writable layout.offsets index slot instruction opcode := by
  obtain ⟨layout, validated, _⟩ := build_eq_ok_iff_validated.mp build_leap
  exact ⟨layout, validated, emit_of_validated validated⟩

end Script

end SceneScript
