/-
**Assembling and disassembling.**

The bytes of a script are tiled by its written instructions, and each of their branches lands where
its label stands. So they are disassembled, and what comes back means the same as the script.

* `lands_of_resolved`: a written branch that fits into the layout lands on its target;
* `tiling_of_build`: the bytes of a script are tiled by instructions with its meanings;
* `disassemble_assemble`: what is assembled can be disassembled, to an equivalent script.
-/

import SceneScript.Proofs.Emission

namespace SceneScript.Script

open Layout Disassembly

/-- **A written branch that fits into the layout lands on its target.** -/
theorem lands_of_resolved {placed : List Placed} {bytes : List UInt8}
    (tiling : Tiling 0 placed bytes) {index : Nat} {item : Placed}
    (found : placed[index]? = some item) {form : Opcode} {body : List UInt8} {place : Option Nat}
    (fits : Fits (placed.map Placed.size) index form body place)
    (resolved : item.instruction.Resolved form body
      (place.map (held (placed.map Placed.size) index form.flow))) :
    LandsAt (placed.map Placed.size) item place := by
  refine ⟨?_, fits.inside⟩
  rw [Placed.destination?_eq resolved, tiling.next_eq found, Option.map_map]
  cases place with
  | none => rfl
  | some target =>
    rw [Option.map_some, Option.map_some, Function.comp_apply,
      landing_held (fits.reaches target rfl)]

variable {script : Script} {origin : Origin} {config : AssemblyConfig} {assembly : Assembly}

/-- **The bytes of a script are tiled by its instructions**: each has its meaning in the script and
lands where its label stands. -/
theorem tiling_of_build (built : script.build config = .ok assembly) :
    ∃ placed, Tiling 0 placed assembly.bytes ∧ placed.length = script.size ∧
      assembly.offsets = startOffsets (placed.map Placed.size) ∧
      (∃ count, placed.map Placed.size = sizes (pass^[count] (script.slots config))) ∧
      ∀ (index : Nat) (item : Placed), placed[index]? = some item →
        ∃ instruction opcode body place form raw,
          script.instructions[index]? = some instruction ∧
          script.Denotes instruction opcode body place ∧
          canonicalCode form = canonicalCode opcode ∧
          item.instruction.Resolved form body raw ∧
          LandsAt (placed.map Placed.size) item place := by
  obtain ⟨written, bytes, _, count, offsets, passes, each⟩ := written_of_build built
  have encoded : ∀ one ∈ written, one.1.encode = .ok one.2 := by
    intro one among
    obtain ⟨index, found⟩ := List.mem_iff_getElem?.mp among
    exact (each index one found).1
  obtain ⟨placed, tiling, instructions, sizes⟩ := Tiling.exists_of_written 0 encoded
  rw [← bytes] at tiling
  rw [← sizes] at each offsets passes
  refine ⟨placed, tiling, ?_, offsets, passes, fun index item found => ?_⟩
  · rw [← count, ← List.length_map Placed.instruction, instructions, List.length_map]
  · have same := congrArg (fun list => list[index]?) instructions
    simp only [List.getElem?_map, found, Option.map_some] at same
    obtain ⟨one, found', own⟩ := Option.map_eq_some_iff.mp same.symm
    obtain ⟨_, _, instruction, opcode, body, place, form, listed, denotes, kin, fits, resolved⟩ :=
      each index one found'
    rw [own] at resolved
    exact ⟨instruction, opcode, body, place, form, _, listed, denotes, kin, resolved,
      lands_of_resolved tiling found fits resolved⟩

/-- **What is assembled can be disassembled**, to an equivalent script with as many instructions. -/
theorem disassemble_assemble (assembled : script.assemble origin config = .ok assembly)
    (id : UInt8) :
    ∃ decoded, disassemble id assembly.bytes = .ok decoded ∧ decoded.size = script.size ∧
      script.equivalent decoded = true := by
  obtain ⟨placed, tiling, length, _, _, parts⟩ := tiling_of_build (assemble_eq_ok_iff.mp assembled)
  have lands : ∀ item ∈ placed, ∃ target, LandsAt (placed.map Placed.size) item target := by
    intro item among
    obtain ⟨index, found⟩ := List.mem_iff_getElem?.mp among
    obtain ⟨_, _, _, place, _, _, _, _, _, _, landing⟩ := parts index item found
    exact ⟨place, landing⟩
  obtain ⟨decoded, accepted⟩ := exists_disassemble id tiling lands
  have size : decoded.size = script.size := by
    rw [← length]
    exact size_of_disassemble accepted tiling
  refine ⟨decoded, accepted, size, equivalent_iff.mpr ⟨size.symm, ?_⟩⟩
  intro index x y found found'
  have inside : index < placed.length := by
    rw [length]
    exact (List.getElem?_eq_some_iff.mp found).1
  have located := List.getElem?_eq_getElem inside
  obtain ⟨_, opcode, body, place, form, raw, listed, denotes, kin, resolved, landing⟩ :=
    parts index _ located
  obtain ⟨_, listed', denotes'⟩ := denotes_of_lands accepted tiling located resolved landing
  rw [found] at listed
  cases listed
  rw [found'] at listed'
  cases listed'
  exact (sameInstruction_iff size.symm denotes).mpr ⟨form, denotes', kin⟩

/-- A jump over a long instruction to the end, and a jump back to that instruction: both labels are
too far away for short jumps, and the second jump has to be turned. -/
def leap : Script where
  id := 0
  instructions := [.jump 0, { opcode := 0x28, operands := [.bytes (List.replicate 253 0)] },
    .jump 1]
  labels := #[{ id := 0, name := "out", position := some 3 },
    { id := 1, name := "again", position := some 1 }]

theorem build_leap : leap.build {} = .ok {
    bytes := [0x11, 5, 1, 0x28, 255] ++ List.replicate 253 0 ++ [0x13, 3, 0]
    instructions := [{ opcode := 0x11, operands := [.offset 261] },
      { opcode := 0x28, operands := [.bytes (List.replicate 253 0)] },
      { opcode := 0x13, operands := [.offset 3] }]
    offsets := #[0, 3, 258, 261]
    passes := 2 } :=
  build_of_eval (by decide +kernel) (by decide +kernel) (by decide +kernel)

theorem disassemble_assemble_leap :
    ∃ assembly, leap.assemble { script := 0 } = .ok assembly ∧
      ∃ decoded, disassemble 7 assembly.bytes = .ok decoded ∧ decoded.size = 3 ∧
        leap.equivalent decoded = true := by
  have assembled : leap.assemble { script := 0 } = .ok _ := assemble_eq_ok_iff.mpr build_leap
  exact ⟨_, assembled, disassemble_assemble assembled 7⟩

end SceneScript.Script
