/-
**Layouts of a script.**

The lengths of instructions are a layout of a script (`Script.LaidOut`) if each instruction has a
form of the right width and direction: a row with its canonical code whose length is the given one
and whose destination it can hold.

* `denotes_of_disassemble`: the instructions of disassembled bytes fit into the lengths that they
  have there;
* `laidOut_of_disassemble`: bytes that hold an equivalent script are a layout of a script.
-/

import SceneScript.Proofs.Linking

namespace SceneScript

open Layout Disassembly

/-- An instruction fits into a layout: it has the length that its parts make, and it can hold its
destination. -/
structure Layout.Fits (sizes : List Nat) (index : Nat) (opcode : Opcode) (body : List UInt8)
    (place : Option Nat) : Prop where
  sized : sizes[index]? = some (1 + body.length + opcode.flow.destinationSize)
  inside : ∀ target ∈ place, target ≤ sizes.length
  reaches : ∀ target ∈ place, Reaches sizes index opcode.flow target

/-- A conditional branch that does not go forward is long: a short one cannot go back. -/
theorem Layout.Fits.flow_of_not_forward {sizes : List Nat} {index target : Nat}
    {opcode : Opcode} {body : List UInt8} {place : Option Nat}
    (fits : Fits sizes index opcode body place) (aimed : target ∈ place)
    (conditional : opcode.flow.isConditional = true) (before : ¬index < target) :
    opcode.flow = .conditional .long := by
  have long : opcode.flow.isLong = true := by
    by_contra short
    have reaches := fits.reaches target aimed
    rw [Reaches, if_neg short, Flow.isBackward_of_isConditional conditional] at reaches
    have behind : index + 1 ≤ target := by simpa using reaches.2
    omega
  cases kind : opcode.flow <;> rw [kind] at long conditional <;> cases conditional
  simpa [Flow.isLong, Flow.width?] using long

namespace Script

/-- The lengths of a script's instructions, each in some form that fits. -/
structure LaidOut (script : Script) (sizes : List Nat) : Prop where
  length_eq : sizes.length = script.size
  fits : ∀ {index : Nat} {instruction : Instruction},
    script.instructions[index]? = some instruction →
    ∃ opcode body place form, script.Denotes instruction opcode body place ∧
      form ∈ Opcode.catalogue ∧ canonicalCode form = canonicalCode opcode ∧
      Fits sizes index form body place

variable {id : UInt8} {bytes : List UInt8} {decoded script : Script}

/-- A decoded instruction fits into the lengths of the tiling that it belongs to. -/
theorem fits_of_lands {placed : List Placed} (tiling : Tiling 0 placed bytes) {index : Nat}
    {item : Placed} (found : placed[index]? = some item) {target : Option Nat}
    (lands : LandsAt (placed.map Placed.size) item target) :
    ∃ opcode body raw, item.instruction.Resolved opcode body raw ∧
      Fits (placed.map Placed.size) index opcode body target := by
  obtain ⟨_, _, written⟩ := tiling.placed_at found
  obtain ⟨opcode, body, raw, resolved, size⟩ := Instruction.exists_encode_iff.mp written
  have sized := Tiling.getElem?_size found
  refine ⟨opcode, body, raw, resolved, size ▸ sized, lands.2, ?_⟩
  rintro place rfl
  have destination := lands.1
  rw [Placed.destination?_eq resolved, tiling.next_eq found] at destination
  cases resolved with
  | plain => cases destination
  | branch _ branches _ _ _ small =>
    refine reaches_of_landing tiling.size_pos ?_ (lands.2 place rfl) branches small
      (Option.some.inj destination)
    exact (List.getElem?_eq_some_iff.mp sized).1

/-- **The instructions of disassembled bytes fit into the lengths that they have there**, and go
where the bytes lead. -/
theorem denotes_of_disassemble (accepted : disassemble id bytes = .ok decoded)
    {placed : List Placed} (tiling : Tiling 0 placed bytes) {index : Nat} {item : Placed}
    (found : placed[index]? = some item) :
    ∃ instruction opcode body place, decoded.instructions[index]? = some instruction ∧
      decoded.Denotes instruction opcode body place ∧
      item.instruction.opcode? = some opcode ∧ LandsAt (placed.map Placed.size) item place ∧
      Fits (placed.map Placed.size) index opcode body place := by
  obtain ⟨placed', targets, tiling', lands, rfl⟩ := disassemble_eq_ok_iff.mp accepted
  obtain rfl := tiling.unique tiling'
  obtain ⟨lengths, each⟩ := Traversal.forall₂_iff_getElem?.mp lands
  have inside : index < targets.length := lengths ▸ (List.getElem?_eq_some_iff.mp found).1
  have found' := List.getElem?_eq_getElem inside
  have landing := each index item _ found found'
  obtain ⟨opcode, body, raw, resolved, fits⟩ := fits_of_lands tiling found landing
  obtain ⟨instruction, listed, denotes⟩ := denotes_script lengths found found' resolved landing
  exact ⟨instruction, opcode, body, _, listed, denotes, resolved.known, landing, fits⟩

/-- The decoded instruction that an instruction of a disassembled script comes from. -/
theorem exists_placed_of_disassemble (accepted : disassemble id bytes = .ok decoded)
    {placed : List Placed} (tiling : Tiling 0 placed bytes) {index : Nat}
    {instruction : Instruction} (listed : decoded.instructions[index]? = some instruction) :
    ∃ item opcode body place, placed[index]? = some item ∧
      decoded.Denotes instruction opcode body place ∧
      item.instruction.opcode? = some opcode ∧ LandsAt (placed.map Placed.size) item place ∧
      Fits (placed.map Placed.size) index opcode body place := by
  have inside : index < placed.length := by
    rw [← size_of_disassemble accepted tiling]
    exact (List.getElem?_eq_some_iff.mp listed).1
  have found := List.getElem?_eq_getElem inside
  obtain ⟨_, opcode, body, place, listed', parts⟩ := denotes_of_disassemble accepted tiling found
  rw [listed] at listed'
  cases listed'
  exact ⟨_, opcode, body, place, found, parts⟩

/-- The instructions of a disassembled script have the codes that the bytes hold. -/
theorem codes_of_disassemble (accepted : disassemble id bytes = .ok decoded) {placed : List Placed}
    (tiling : Tiling 0 placed bytes) :
    placed.map (fun item => item.instruction.opcode) =
      decoded.instructions.map Instruction.opcode := by
  refine List.ext_getElem? fun index => ?_
  rw [List.getElem?_map, List.getElem?_map]
  cases found : placed[index]? with
  | none =>
    rw [List.getElem?_eq_none_iff, ← size_of_disassemble accepted tiling] at found
    rw [List.getElem?_eq_none_iff.mpr found]
    rfl
  | some item =>
    obtain ⟨instruction, _, _, _, listed, denotes, known, _⟩ :=
      denotes_of_disassemble accepted tiling found
    rw [listed, Option.map_some, Option.map_some, ← Opcode.code_of_ofCode? known,
      ← Opcode.code_of_ofCode? denotes.known]

/-- **Bytes that hold an equivalent script are a layout of a script.** -/
theorem laidOut_of_disassemble (accepted : disassemble id bytes = .ok decoded)
    {placed : List Placed} (tiling : Tiling 0 placed bytes)
    (same : script.equivalent decoded = true) : script.LaidOut (placed.map Placed.size) := by
  obtain ⟨sizes, pairs⟩ := equivalent_iff.mp same
  have count := size_of_disassemble accepted tiling
  refine ⟨by rw [List.length_map, ← count, sizes], fun {index instruction} found => ?_⟩
  have inside : index < placed.length := by
    rw [← count, ← sizes]
    exact (List.getElem?_eq_some_iff.mp found).1
  obtain ⟨other, form, body, place, listed, denotes, _, _, fits⟩ :=
    denotes_of_disassemble accepted tiling (List.getElem?_eq_getElem inside)
  have pair := pairs index instruction other found listed
  rw [sameInstruction_comm] at pair
  obtain ⟨opcode, denotes', kin⟩ := (sameInstruction_iff sizes.symm denotes).mp pair
  exact ⟨opcode, body, place, form, denotes', denotes.member, kin.symm, fits⟩

end Script

end SceneScript
