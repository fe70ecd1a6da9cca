/-
**The byte format.**

Bytes hold a script if they are written instructions, one right behind the other, in which every
branch leads to the start of an instruction or to the end (`Format`). Exactly these byte strings are
disassembled. A byte string has one reading in this format, and the script is that reading with
labels in place of the numbers that the branches hold (`Script.Reads`).

* `Placed.destination?_eq_some_iff`: a decoded branch goes where the bytes say (`BranchesTo`);
* `Tiling.format`, `Format.exists_tiling`: a byte string has the format if it is tiled by
  instructions that land on boundaries;
* `Format.unique`: a byte string has one reading;
* `reads_of_disassemble`: a disassembled script reads the bytes;
* `disassembleFirst_isOk_iff`: the part of a byte string up to a given length is disassembled if it
  is there and has the format.
-/

import SceneScript.Proofs.Linking

namespace SceneScript

open Layout Disassembly

/-- Where a written branch leads that ends at `next`: a short one leads as many bytes on as it says,
or back if it is a jump backward, and a long one to the place that it names (`Flow.landing`). -/
def Instruction.BranchesTo (instruction : Instruction) (next : Nat) (destination : Int) : Prop :=
  ∃ opcode place value, instruction.opcode? = some opcode ∧ opcode.branchOperand? = some place ∧
    instruction.operands[place]? = some (.offset value) ∧
    destination = opcode.flow.landing next value.toInt

/-- The place where the part with a given index starts, or the end. -/
def startOf (parts : List (List UInt8)) (index : Nat) : Nat := (parts.take index).flatten.length

/-- Bytes in the format of a script: the written forms of instructions, one right behind the other,
in which every branch leads to the start of one of them or to the end. -/
structure Format (bytes : List UInt8) (code : List Instruction) (parts : List (List UInt8)) :
    Prop where
  encoded : List.Forall₂ (fun instruction part => instruction.encode = .ok part) code parts
  joined : bytes = parts.flatten
  aligned : ∀ {index : Nat} {instruction : Instruction} {destination : Int},
    code[index]? = some instruction →
    instruction.BranchesTo (startOf parts (index + 1)) destination →
    ∃ target ≤ code.length, destination = startOf parts target

namespace Script

/-- A written instruction that ends at `next`, as it stands in a script: a branch names a label at
the index of the part to which it leads, anything else is left as it is. -/
inductive Links (script : Script) (parts : List (List UInt8)) (next : Nat)
    (instruction : Instruction) : Instruction → Prop
  | plain : (∀ destination, ¬instruction.BranchesTo next destination) →
      Links script parts next instruction instruction
  | branch {place label target : Nat} :
      instruction.BranchesTo next (startOf parts target) → target ≤ parts.length →
      instruction.branchOperand? = some place → script.position? label = some target →
      Links script parts next instruction
        { instruction with operands := instruction.operands.set place (.label label) }

/-- A script that holds written instructions in their order, with labels for the destinations. -/
structure Reads (script : Script) (code : List Instruction) (parts : List (List UInt8)) : Prop where
  size_eq : script.size = code.length
  links : ∀ {index : Nat} {written instruction : Instruction}, code[index]? = some written →
    script.instructions[index]? = some instruction →
    script.Links parts (startOf parts (index + 1)) written instruction

end Script

/-! ### Destinations -/

theorem startOf_eq (parts : List (List UInt8)) (index : Nat) :
    startOf parts index = offsetAt (parts.map List.length) index := by
  rw [startOf, offsetAt, List.length_flatten, List.map_take]

/-- **A decoded branch goes where the bytes say.** -/
theorem Placed.destination?_eq_some_iff {item : Placed} {destination : Int} :
    item.destination? = some destination ↔ item.instruction.BranchesTo item.next destination := by
  constructor
  · intro found
    obtain ⟨opcode, known, rest⟩ := Option.bind_eq_some_iff.mp found
    obtain ⟨place, operand, rest⟩ := Option.bind_eq_some_iff.mp rest
    obtain ⟨value, held, rest⟩ := Option.bind_eq_some_iff.mp rest
    cases value with
    | offset value =>
      rw [destination?_of_operand known operand held] at found
      exact ⟨opcode, place, value, known, operand, held, (Option.some.inj found).symm⟩
    | scalar | label | bytes => cases rest
  · rintro ⟨opcode, place, value, known, operand, held, rfl⟩
    exact destination?_of_operand known operand held

theorem Disassembly.exists_landsAt_iff {sizes : List Nat} {item : Placed} :
    (∃ target, LandsAt sizes item target) ↔
      ∀ destination, item.instruction.BranchesTo item.next destination →
        ∃ target ≤ sizes.length, destination = offsetAt sizes target := by
  constructor
  · rintro ⟨target, lands, inside⟩ destination leads
    rw [Placed.destination?_eq_some_iff.mpr leads] at lands
    obtain ⟨index, rfl, same⟩ := Option.map_eq_some_iff.mp lands.symm
    exact ⟨index, inside index rfl, same.symm⟩
  · intro aligned
    cases found : item.destination? with
    | none => exact ⟨none, by rw [found]; rfl, by simp⟩
    | some destination =>
      obtain ⟨target, inside, rfl⟩ :=
        aligned destination (Placed.destination?_eq_some_iff.mp found)
      refine ⟨some target, by rw [found]; rfl, ?_⟩
      intro index same
      cases same
      exact inside

/-! ### Tilings and the format -/

section Tiled

variable {placed : List Placed} {bytes : List UInt8} {code : List Instruction}
  {parts : List (List UInt8)}

/-- The bytes of a tiling are the written forms of its instructions. -/
theorem Disassembly.Tiling.exists_parts {start : Nat} (tiling : Tiling start placed bytes) :
    ∃ parts, List.Forall₂ (fun instruction part => instruction.encode = .ok part)
        (placed.map Placed.instruction) parts ∧
      bytes = parts.flatten ∧ placed.map Placed.size = parts.map List.length := by
  induction tiling with
  | nil => exact ⟨[], .nil, rfl, rfl⟩
  | @cons start instruction own tail rest encoded _ ih =>
    obtain ⟨parts, others, rfl, sizes⟩ := ih
    refine ⟨own :: parts, .cons encoded others, rfl, ?_⟩
    rw [List.map_cons, List.map_cons, sizes, Placed.size, Nat.add_sub_cancel_left]

/-- **Tiled bytes have the format** if every instruction lands on a boundary. -/
theorem Disassembly.Tiling.format (tiling : Tiling 0 placed bytes)
    (encoded : List.Forall₂ (fun instruction part => instruction.encode = .ok part)
      (placed.map Placed.instruction) parts)
    (joined : bytes = parts.flatten) (sizes : placed.map Placed.size = parts.map List.length)
    (lands : ∀ item ∈ placed, ∃ target, LandsAt (placed.map Placed.size) item target) :
    Format bytes (placed.map Placed.instruction) parts := by
  refine ⟨encoded, joined, fun {index instruction destination} listed leads => ?_⟩
  rw [List.getElem?_map] at listed
  obtain ⟨item, found, rfl⟩ := Option.map_eq_some_iff.mp listed
  rw [startOf_eq, ← sizes, ← tiling.next_eq found] at leads
  obtain ⟨target, inside, same⟩ :=
    exists_landsAt_iff.mp (lands item (List.mem_of_getElem? found)) destination leads
  refine ⟨target, by simpa using inside, ?_⟩
  rw [startOf_eq, ← sizes, same]

/-- Written instructions, one right behind the other, tile their bytes. -/
theorem Disassembly.Tiling.exists_of_parts (start : Nat)
    (encoded : List.Forall₂ (fun instruction part => instruction.encode = .ok part) code parts) :
    ∃ placed, Tiling start placed parts.flatten ∧ placed.map Placed.instruction = code ∧
      placed.map Placed.size = parts.map List.length := by
  obtain ⟨lengths, each⟩ := List.forall₂_iff_zip.mp encoded
  obtain ⟨placed, tiling, instructions, sizes⟩ :=
    Tiling.exists_of_written start (fun one (among : one ∈ code.zip parts) => each among)
  rw [List.flatMap_def, List.map_snd_zip lengths.ge] at tiling
  rw [List.map_fst_zip lengths.le] at instructions
  have seconds := congrArg (List.map List.length) (List.map_snd_zip lengths.ge)
  rw [List.map_map] at seconds
  exact ⟨placed, tiling, instructions, sizes.trans seconds⟩

/-- **Bytes in the format are tiled**, and every instruction lands on a boundary. -/
theorem Format.exists_tiling (format : Format bytes code parts) :
    ∃ placed, Tiling 0 placed bytes ∧ placed.map Placed.instruction = code ∧
      placed.map Placed.size = parts.map List.length ∧
      ∀ item ∈ placed, ∃ target, LandsAt (placed.map Placed.size) item target := by
  have lengths := format.encoded.length_eq
  obtain ⟨placed, tiling, instructions, sizes⟩ := Tiling.exists_of_parts 0 format.encoded
  rw [← format.joined] at tiling
  refine ⟨placed, tiling, instructions, sizes, fun item among => exists_landsAt_iff.mpr ?_⟩
  intro destination leads
  obtain ⟨index, found⟩ := List.mem_iff_getElem?.mp among
  rw [tiling.next_eq found, sizes, ← startOf_eq] at leads
  have listed : code[index]? = some item.instruction := by
    rw [← instructions, Tiling.getElem?_instruction found]
  obtain ⟨target, inside, same⟩ := format.aligned listed leads
  refine ⟨target, ?_, ?_⟩
  · rwa [sizes, List.length_map, ← lengths]
  · rw [sizes, ← startOf_eq, same]

/-- **A byte string has one reading.** -/
theorem Format.unique {code' : List Instruction} {parts' : List (List UInt8)}
    (format : Format bytes code parts) (format' : Format bytes code' parts') :
    code = code' ∧ parts = parts' := by
  obtain ⟨placed, tiling, rfl, _, _⟩ := format.exists_tiling
  obtain ⟨placed', tiling', rfl, _, _⟩ := format'.exists_tiling
  obtain rfl := tiling.unique tiling'
  refine ⟨rfl, ?_⟩
  have functional : Relator.RightUnique fun (instruction : Instruction) (part : List UInt8) =>
      instruction.encode = .ok part := by
    intro instruction part part' written written'
    rw [written] at written'
    cases written'
    rfl
  exact List.right_unique_forall₂' functional format.encoded format'.encoded

end Tiled

/-! ### Scripts -/

namespace Script

variable {id : UInt8} {bytes : List UInt8} {length : Nat} {script : Script}
  {code : List Instruction} {parts : List (List UInt8)}

/-- A decoded instruction is linked to the label of its target. -/
theorem links_script {placed : List Placed} {targets : List (Option Nat)}
    (sizes : placed.map Placed.size = parts.map List.length) {index : Nat} {item : Placed}
    (found : placed[index]? = some item) {target : Option Nat}
    (found' : targets[index]? = some target)
    (lands : LandsAt (placed.map Placed.size) item target) :
    ∃ instruction,
      (Disassembly.script id placed targets).instructions[index]? = some instruction ∧
      (Disassembly.script id placed targets).Links parts item.next item.instruction
        instruction := by
  cases target with
  | none =>
    refine ⟨item.instruction, ?_, .plain fun destination leads => ?_⟩
    · simp [Disassembly.script, List.getElem?_zipWith, found, found']
    · have destination := lands.1
      rw [Placed.destination?_eq_some_iff.mpr leads] at destination
      cases destination
  | some target =>
    obtain ⟨label, listed, numbered⟩ := exists_position found'
    have destination := Placed.destination?_eq_some_iff.mp lands.1
    have leads : item.instruction.BranchesTo item.next (startOf parts target) := by
      rw [startOf_eq, ← sizes]
      exact destination
    obtain ⟨opcode, place, value, known, operand, held, _⟩ := destination
    have placeOf : item.instruction.branchOperand? = some place := by
      rw [Instruction.branchOperand?, known, Option.bind_some, operand]
    have inside : place < item.instruction.operands.length :=
      (List.getElem?_eq_some_iff.mp held).1
    refine ⟨{ item.instruction with
      operands := item.instruction.operands.set place (.label label) }, ?_, ?_⟩
    · have linked : item.instruction.retarget? label = some { item.instruction with
          operands := item.instruction.operands.set place (.label label) } := by
        simp [Instruction.retarget?, placeOf, inside]
      simp only [Disassembly.script, List.getElem?_zipWith, found, found', Option.bind_some,
        numbered, linked, Option.getD_some]
    · refine .branch leads ?_ placeOf (position?_script label ▸ listed)
      simpa [sizes] using lands.2 target rfl

/-- **A disassembled script reads the bytes.** -/
theorem reads_of_disassemble (accepted : disassemble id bytes = .ok script)
    (format : Format bytes code parts) : script.id = id ∧ script.Reads code parts := by
  obtain ⟨placed, targets, tiling, lands, rfl⟩ := disassemble_eq_ok_iff.mp accepted
  obtain ⟨placed', tiling', rfl, sizes, _⟩ := format.exists_tiling
  obtain rfl := tiling.unique tiling'
  obtain ⟨lengths, each⟩ := Traversal.forall₂_iff_getElem?.mp lands
  refine ⟨rfl, ?_, fun {index written instruction} listed found => ?_⟩
  · rw [size_script lengths, List.length_map]
  · rw [List.getElem?_map] at listed
    obtain ⟨item, located, rfl⟩ := Option.map_eq_some_iff.mp listed
    have inside : index < targets.length := lengths ▸ (List.getElem?_eq_some_iff.mp located).1
    have targeted := List.getElem?_eq_getElem inside
    obtain ⟨own, found', links⟩ :=
      links_script sizes located targeted (each index item _ located targeted)
    obtain rfl := Option.some.inj (found.symm.trans found')
    rwa [tiling.next_eq located, sizes, ← startOf_eq] at links

/-- Bytes are disassembled if they have the format. -/
theorem disassemble_isOk_iff :
    (∃ script, disassemble id bytes = .ok script) ↔ ∃ code parts, Format bytes code parts := by
  constructor
  · rintro ⟨script, accepted⟩
    obtain ⟨placed, targets, tiling, lands, _⟩ := disassemble_eq_ok_iff.mp accepted
    obtain ⟨parts, encoded, joined, sizes⟩ := tiling.exists_parts
    refine ⟨_, parts, tiling.format encoded joined sizes fun item among => ?_⟩
    obtain ⟨lengths, each⟩ := Traversal.forall₂_iff_getElem?.mp lands
    obtain ⟨index, found⟩ := List.mem_iff_getElem?.mp among
    have inside : index < targets.length := lengths ▸ (List.getElem?_eq_some_iff.mp found).1
    exact ⟨_, each index item _ found (List.getElem?_eq_getElem inside)⟩
  · rintro ⟨code, parts, format⟩
    obtain ⟨placed, tiling, _, _, lands⟩ := format.exists_tiling
    exact exists_disassemble id tiling lands

theorem disassembleFirst_of_le (enough : length ≤ bytes.length) :
    disassembleFirst id bytes length = disassemble id (bytes.take length) := by
  have whole : ¬(bytes.take length).length < length := by
    rw [List.length_take]
    omega
  rw [disassembleFirst, if_neg whole]

/-- If a script is announced longer than its bytes, an instruction is missing at their end. -/
theorem disassembleFirst_of_lt (short : bytes.length < length) :
    disassembleFirst id bytes length =
      decodeAll bytes >>= fun _ => .error (.truncatedInstruction bytes.length) := by
  rw [disassembleFirst, List.take_of_length_le short.le, if_pos short]
  rfl

/-- The part of a byte string up to a given length is disassembled only if it is there. -/
theorem disassembleFirst_eq_ok_iff :
    disassembleFirst id bytes length = .ok script ↔
      length ≤ bytes.length ∧ disassemble id (bytes.take length) = .ok script := by
  by_cases enough : length ≤ bytes.length
  · rw [disassembleFirst_of_le enough, and_iff_right enough]
  · rw [disassembleFirst_of_lt (Nat.lt_of_not_le enough), Traversal.bind_eq_ok_iff]
    refine iff_of_false ?_ fun both => enough both.1
    rintro ⟨_, _, impossible⟩
    cases impossible

/-- **The first `length` bytes are disassembled** exactly if they are there and have the format.
They have one reading then, and the script is that reading: its instructions in order, each branch
with a label at the index of the instruction to which it leads. -/
theorem disassembleFirst_isOk_iff (id : UInt8) (bytes : List UInt8) (length : Nat) :
    ((∃ script, disassembleFirst id bytes length = .ok script) ↔
      length ≤ bytes.length ∧ ∃ code parts, Format (bytes.take length) code parts) ∧
    (∀ code parts code' parts', Format (bytes.take length) code parts →
      Format (bytes.take length) code' parts' → code = code') ∧
    ∀ script, disassembleFirst id bytes length = .ok script →
      ∃ code parts, Format (bytes.take length) code parts ∧ script.id = id ∧
        script.Reads code parts := by
  refine ⟨?_, ?_, ?_⟩
  · simp only [disassembleFirst_eq_ok_iff, exists_and_left, disassemble_isOk_iff]
  · intro code parts code' parts' format format'
    exact (format.unique format').1
  · intro script accepted
    obtain ⟨_, whole⟩ := disassembleFirst_eq_ok_iff.mp accepted
    obtain ⟨code, parts, format⟩ := disassemble_isOk_iff.mp ⟨script, whole⟩
    exact ⟨code, parts, format, reads_of_disassemble whole format⟩

end Script

end SceneScript
