/-
**The parts of an assembly agree.**

An assembly holds its bytes, its instructions and their places side by side. The places start at
zero, grow, and end with the bytes; the bytes between two of them are the instruction that stands
there; that instruction is the one of the script in some width and direction; and a branch leads to
the place of the instruction before which its label stands (`Assembly.Consistent`).

* `getElem?_slice`: the bytes between two places are those of the instruction written there;
* `operands_of_resolved`: writing an instruction changes no operand other than the destination;
* `branchesTo_of_fits`: a written branch leads to the place of its target;
* `assemble_consistent`: all of this holds of every assembly.
-/

import SceneScript.Proofs.Format
import SceneScript.Proofs.RoundTrip

namespace SceneScript

open Layout
open Script (canonicalCode)

namespace Assembly

/-- How an instruction of a script stands in an assembly, written as `one` from `start` up to
`next`: its bytes lie there, it differs from the instruction in the width and the direction of a
branch and in the destination only, and it leads to the place where the label stands. -/
structure Stands (assembly : Assembly) (script : Script) (instruction one : Instruction)
    (start next : Nat) : Prop where
  covers : one.encode = .ok ((assembly.bytes.take next).drop start)
  kin : ∃ opcode form, instruction.opcode? = some opcode ∧ one.opcode? = some form ∧
    canonicalCode form = canonicalCode opcode
  operands : ∀ place, instruction.branchOperand? ≠ some place →
    one.operands[place]? = instruction.operands[place]?
  leads : instruction.isBranch = true → ∃ label target destination,
    instruction.target? = some label ∧ script.position? label = some target ∧
      assembly.offsets[target]? = some destination ∧ one.BranchesTo next destination

/-- The parts of an assembly agree with each other and with the script. -/
structure Consistent (assembly : Assembly) (script : Script) : Prop where
  count : assembly.offsets.size = script.size + 1
  first : assembly.offsets[0]? = some 0
  increasing : assembly.offsets.toList.Pairwise (· < ·)
  last : assembly.offsets[script.size]? = some assembly.bytes.length
  small : assembly.bytes.length ≤ 65535
  size_eq : assembly.instructions.length = script.size
  stands : ∀ {index : Nat} {instruction : Instruction},
    script.instructions[index]? = some instruction →
    ∃ one start next, assembly.instructions[index]? = some one ∧
      assembly.offsets[index]? = some start ∧ assembly.offsets[index + 1]? = some next ∧
      assembly.Stands script instruction one start next

end Assembly

/-! ### Places -/

theorem Layout.pairwise_startOffsets {sizes : List Nat} (positive : ∀ size ∈ sizes, 0 < size) :
    (startOffsets sizes).toList.Pairwise (· < ·) := by
  rw [startOffsets_toList, List.pairwise_map]
  refine List.pairwise_lt_range.imp_of_mem fun {first last} _ among before => ?_
  exact offsetAt_lt_offsetAt positive before (Nat.lt_succ_iff.mp (List.mem_range.mp among))

/-- **The bytes between two places are those of the instruction written there.** -/
theorem getElem?_slice {written : List (Instruction × List UInt8)} {index : Nat}
    {one : Instruction × List UInt8} (found : written[index]? = some one) :
    ((written.flatMap Prod.snd).take
      (offsetAt (written.map fun one => one.2.length) (index + 1))).drop
        (offsetAt (written.map fun one => one.2.length) index) = one.2 := by
  obtain ⟨inside, rfl⟩ := List.getElem?_eq_some_iff.mp found
  have lengths : (written.map fun one => one.2.length) =
      (written.map Prod.snd).map List.length := by
    rw [List.map_map]
    rfl
  have inside' : index < (written.map Prod.snd).length := by rwa [List.length_map]
  rw [lengths, List.flatMap_def]
  exact (List.drop_take_succ_flatten_eq_getElem _ index inside').trans (List.getElem_map _)

/-! ### One instruction -/

section Instruction

variable {script : Script} {instruction one : Instruction} {opcode form : Opcode}
  {body : List UInt8} {place : Option Nat}

/-- **Writing an instruction changes no operand other than the destination.** -/
theorem operands_of_resolved (denotes : script.Denotes instruction opcode body place)
    (kin : canonicalCode form = canonicalCode opcode) {number : Nat → Nat}
    (resolved : one.Resolved form body (place.map number)) {position : Nat}
    (other : instruction.branchOperand? ≠ some position) :
    one.operands[position]? = instruction.operands[position]? := by
  have leading :=
    Opcode.leading_eq_of_kin (Opcode.mem_of_ofCode? resolved.known) denotes.member kin
  have branchOperand := Opcode.branchOperand?_eq denotes.member
  cases denotes with
  | plain _ _ written =>
    cases resolved with
    | plain _ _ written' =>
      rw [leading] at written'
      rw [written'.operands_unique written]
  | branch known branches written operands _ _ =>
    cases resolved with
    | branch _ _ written' operands' _ _ =>
      obtain ⟨width, wide⟩ := Option.isSome_iff_exists.mp branches
      rw [Instruction.branchOperand?, known, Option.bind_some, branchOperand, wide,
        Option.map_some, written.length_eq] at other
      rw [leading] at written'
      rw [operands, operands', written'.operands_unique written]
      have apart : position ≠ _ := fun same => other (congrArg some same.symm)
      grind

/-- **A written branch leads to the place of its target.** -/
theorem branchesTo_of_fits {sizes : List Nat} {index target : Nat}
    (fits : Fits sizes index form body (some target))
    (resolved : one.Resolved form body (some (held sizes index form.flow target))) :
    one.BranchesTo (offsetAt sizes (index + 1)) (offsetAt sizes target) := by
  have lands : Placed.destination? ⟨0, one, offsetAt sizes (index + 1)⟩ = _ :=
    Placed.destination?_eq resolved
  rw [Option.map_some, landing_held (fits.reaches target rfl)] at lands
  exact Placed.destination?_eq_some_iff.mp lands

end Instruction

namespace Script

variable {script : Script} {config : AssemblyConfig} {assembly : Assembly}

/-- An instruction that is written in its place stands there. -/
theorem stands_of_writtenAt {written : List (Instruction × List UInt8)} {lengths : List Nat}
    (bytes : assembly.bytes = written.flatMap Prod.snd)
    (sized : lengths = written.map fun one => one.2.length)
    (offsets : assembly.offsets = startOffsets lengths) {index : Nat}
    {one : Instruction × List UInt8} (found : written[index]? = some one)
    (writtenAt : script.WrittenAt lengths index one) :
    ∃ instruction, script.instructions[index]? = some instruction ∧
      assembly.Stands script instruction one.1 (offsetAt lengths index)
        (offsetAt lengths (index + 1)) := by
  obtain ⟨encoded, _, instruction, opcode, body, place, form, listed, denotes, kin, fits,
    resolved⟩ := writtenAt
  refine ⟨instruction, listed, ?_, ⟨opcode, form, denotes.known, resolved.known, kin⟩,
    fun _ other => operands_of_resolved denotes kin resolved other, fun branches => ?_⟩
  · rw [bytes, sized, getElem?_slice found, encoded]
  · have targets : opcode.flow.hasTarget = true := by
      simpa [Instruction.isBranch, denotes.known] using branches
    rw [denotes.hasTarget_eq] at targets
    obtain ⟨target, rfl⟩ := Option.isSome_iff_exists.mp targets
    obtain ⟨label, named, position⟩ := denotes.exists_label
    refine ⟨label, target, offsetAt lengths target, named, position, ?_,
      branchesTo_of_fits fits resolved⟩
    rw [offsets, getElem?_startOffsets (fits.inside target rfl)]

/-- **The parts of an assembly agree** with each other and with the script. -/
theorem assemble_consistent {origin : Origin}
    (assembled : script.assemble origin config = .ok assembly) : assembly.Consistent script := by
  have built := assemble_eq_ok_iff.mp assembled
  obtain ⟨written, bytes, instructions, count, offsets, _, each⟩ := written_of_build built
  generalize sized : (written.map fun one => one.2.length) = lengths at offsets each
  have length : lengths.length = script.size := by rw [← sized, List.length_map, count]
  have total : lengths.sum = assembly.bytes.length := by
    rw [bytes, List.length_flatMap, sized]
  have positive : ∀ size ∈ lengths, 0 < size := by
    rw [← sized]
    intro size among
    obtain ⟨one, member, rfl⟩ := List.mem_map.mp among
    obtain ⟨index, found⟩ := List.mem_iff_getElem?.mp member
    exact Instruction.length_pos_of_encode (each index one found).1
  refine ⟨?_, ?_, ?_, ?_, length_le_of_build built, ?_, fun {index instruction} listed => ?_⟩
  · rw [offsets, size_startOffsets, length]
  · rw [offsets, getElem?_startOffsets (Nat.zero_le _), offsetAt_zero]
  · rw [offsets]
    exact pairwise_startOffsets positive
  · rw [offsets, ← length, getElem?_startOffsets le_rfl, offsetAt_length, total]
  · rw [instructions, List.length_map, count]
  · have inside : index < script.size := (List.getElem?_eq_some_iff.mp listed).1
    have found := List.getElem?_eq_getElem (count ▸ inside)
    obtain ⟨own, listed', stands⟩ :=
      stands_of_writtenAt bytes sized.symm offsets found (each index _ found)
    obtain rfl := Option.some.inj (listed.symm.trans listed')
    refine ⟨_, _, _, ?_, ?_, ?_, stands⟩
    · rw [instructions, List.getElem?_map, found, Option.map_some]
    · rw [offsets, getElem?_startOffsets (by omega)]
    · rw [offsets, getElem?_startOffsets (by omega)]

theorem assemble_consistent_leap :
    ∃ assembly, leap.assemble { script := 0 } = .ok assembly ∧
      assembly.offsets = #[0, 3, 258, 261] ∧ assembly.Consistent leap := by
  have assembled : leap.assemble { script := 0 } = .ok _ := assemble_eq_ok_iff.mpr build_leap
  exact ⟨_, assembled, rfl, assemble_consistent assembled⟩

end Script

end SceneScript
