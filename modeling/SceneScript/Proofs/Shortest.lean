/-
**The shortest encoding.**

Layout starts with all branches short and makes a branch long only if its gap is above 255. Gaps
grow with the lengths, so a branch that layout makes long is long in every layout of the script: the
slots stay below all of them, pass by pass.

* `LaidOut.exists_form`: the form that an instruction has in a layout;
* `Fits.isLong_of_far`: a branch whose gap is above 255 in shorter lengths is long;
* `slots_le_laidOut`, `pass_le_laidOut`: the slots of a script are not longer than a layout, before
  layout and after every pass;
* `assemble_shortest`: nothing that disassembles to an equivalent script is shorter than what is
  assembled, up to any instruction.
-/

import SceneScript.Proofs.RoundTrip

namespace SceneScript

open Layout Disassembly

/-- **A branch whose gap is above 255 in shorter lengths is long.** -/
theorem Layout.Fits.isLong_of_far {sizes sizes' : List Nat} {index target : Nat} {form : Opcode}
    {body : List UInt8} (fits : Fits sizes' index form body (some target))
    (shorter : List.Forall₂ (· ≤ ·) sizes sizes') (far : 255 < gap sizes index target) :
    form.flow.isLong = true := by
  by_contra short
  have reaches := fits.reaches target rfl
  rw [Reaches, if_neg short] at reaches
  have wider := gap_le_gap shorter index target
  omega

namespace Script

variable {script : Script} {sizes' : List Nat} {config : AssemblyConfig} {slots : List Slot}

/-- The form that an instruction has in a layout. -/
theorem LaidOut.exists_form (laid : script.LaidOut sizes') {index : Nat} {instruction : Instruction}
    (listed : script.instructions[index]? = some instruction) {opcode : Opcode} {body : List UInt8}
    {place : Option Nat} (denotes : script.Denotes instruction opcode body place) :
    ∃ form ∈ Opcode.catalogue, canonicalCode form = canonicalCode opcode ∧
      Fits sizes' index form body place := by
  obtain ⟨_, _, _, form, denotes', member, kin, fits⟩ := laid.fits listed
  obtain ⟨rfl, rfl, rfl⟩ := denotes.unique denotes'
  exact ⟨form, member, kin, fits⟩

/-- The form that the instruction of a slot has in a layout. -/
theorem LaidOut.exists_rival (laid : script.LaidOut sizes') (carries : script.Carries slots)
    {index : Nat} {slot : Slot} (located : slots[index]? = some slot) :
    ∃ body place form other, slot.Holds index form body place ∧ other ∈ Opcode.catalogue ∧
      canonicalCode form = canonicalCode other ∧ Fits sizes' index other body place := by
  obtain ⟨instruction, opcode, body, place, form, listed, denotes, holds, kin⟩ :=
    carries.holds located
  obtain ⟨other, member, kin', fits⟩ := laid.exists_form listed denotes
  exact ⟨body, place, form, other, holds, member, kin.trans kin'.symm, fits⟩

/-- A short form is not longer than another form of the same instruction. -/
theorem destinationSize_le {form other : Opcode} (member : form ∈ Opcode.catalogue)
    (member' : other ∈ Opcode.catalogue) (kin : canonicalCode form = canonicalCode other)
    (short : form.flow.isLong = false) :
    form.flow.destinationSize ≤ other.flow.destinationSize := by
  have targets := Opcode.hasTarget_eq_of_kin member member' kin
  cases branches : form.flow.hasTarget with
  | false =>
    rw [Flow.destinationSize_of_plain branches]
    exact Nat.zero_le _
  | true =>
    rw [branches] at targets
    rw [Flow.destinationSize_of_short branches short]
    cases long : other.flow.isLong with
    | true =>
      rw [Flow.destinationSize_of_isLong long]
      decide
    | false => rw [Flow.destinationSize_of_short targets.symm long]

/-- **Before layout, no slot is longer than in a layout.** -/
theorem slots_le_laidOut (laid : script.LaidOut sizes') (nothing : script.findings config = []) :
    List.Forall₂ (· ≤ ·) (sizes (script.slots config)) sizes' := by
  refine Traversal.forall₂_iff_getElem?.mpr ⟨?_, fun index size size' found found' => ?_⟩
  · rw [length_sizes, length_slots, laid.length_eq]
  · rw [sizes, List.getElem?_map, getElem?_slots, Option.map_map] at found
    obtain ⟨instruction, listed, rfl⟩ := Option.map_eq_some_iff.mp found
    have sound := (findings_eq_nil_iff.mp nothing).2 index instruction listed
    obtain ⟨opcode, body, place, denotes, aims⟩ := Slot.denotes_of_prepare sound
    obtain ⟨_, form, holds, kin, short⟩ := Slot.prepare_of_denotes denotes aims
    obtain ⟨other, member, kin', fits⟩ := laid.exists_form listed denotes
    have shorter := destinationSize_le holds.member member (kin.trans kin'.symm) short
    have size := Option.some.inj (found'.symm.trans fits.sized)
    rw [Function.comp_apply, holds.sized, size]
    omega

/-- **A layout pass keeps the slots below a layout.** A branch is made long only if it is long
there. -/
theorem pass_le_laidOut (laid : script.LaidOut sizes') (carries : script.Carries slots)
    (sound : Layout.Sound slots) (below : List.Forall₂ (· ≤ ·) (sizes slots) sizes') :
    List.Forall₂ (· ≤ ·) (sizes (pass slots)) sizes' := by
  obtain ⟨lengths, each⟩ := Traversal.forall₂_iff_getElem?.mp below
  refine Traversal.forall₂_iff_getElem?.mpr ⟨?_, fun index size size' found found' => ?_⟩
  · rw [length_sizes, length_pass, ← length_sizes, lengths]
  · rw [sizes, List.getElem?_map, getElem?_pass, Option.map_map] at found
    obtain ⟨slot, located, rfl⟩ := Option.map_eq_some_iff.mp found
    have before := each index slot.size size' (getElem?_sizes located) found'
    rw [Function.comp_apply]
    cases grows : slot.promotion? (startOffsets (sizes slots)) index with
    | none =>
      rw [Slot.promote_of_none _ _ _ grows]
      exact before
    | some long =>
      obtain ⟨form, target, chosen, targeted, short, far, _⟩ :=
        (Slot.promotion?_eq_some_iff (sound.sound_slot located) (getElem?_sizes located)).mp grows
      obtain ⟨body, place, _, other, holds, _, _, fits⟩ := laid.exists_rival carries located
      obtain ⟨rfl, rfl⟩ := holds.eq_of_target chosen targeted
      have size := Option.some.inj (found'.symm.trans fits.sized)
      rw [Flow.destinationSize_of_isLong (fits.isLong_of_far below far)] at size
      rw [Slot.promote_of_some _ _ _ grows, size]
      have own := holds.sized
      rw [Flow.destinationSize_of_short holds.hasTarget_eq short] at own
      simp only
      omega

/-- No number of passes makes the slots longer than a layout. -/
theorem iterate_pass_le_laidOut (laid : script.LaidOut sizes')
    (nothing : script.findings config = []) (count : Nat) :
    List.Forall₂ (· ≤ ·) (sizes (pass^[count] (script.slots config))) sizes' := by
  have step : ∀ slots, (script.Carries slots ∧ Layout.Sound slots ∧
        List.Forall₂ (· ≤ ·) (sizes slots) sizes') →
      script.Carries (pass slots) ∧ Layout.Sound (pass slots) ∧
        List.Forall₂ (· ≤ ·) (sizes (pass slots)) sizes' := by
    rintro slots ⟨carries, sound, below⟩
    exact ⟨carries.pass, sound.pass, pass_le_laidOut laid carries sound below⟩
  have start := slots_le_laidOut laid nothing
  exact (iterate_pass step ⟨carries_slots nothing, sound_slots config script, start⟩ count).2.2

/-- **What is assembled is the shortest encoding**: in bytes that disassemble to an equivalent
script no instruction stands before the place that it has in the assembly, nor does the end. -/
theorem assemble_shortest {origin : Origin} {assembly : Assembly}
    (assembled : script.assemble origin config = .ok assembly) {id : UInt8} {bytes : List UInt8}
    {decoded : Script} (accepted : disassemble id bytes = .ok decoded)
    (same : script.equivalent decoded = true) :
    ∃ placed, decodeAll bytes = .ok placed ∧
      placed.map (fun item => item.instruction.opcode) =
        decoded.instructions.map Instruction.opcode ∧
      List.Forall₂ (· ≤ ·) assembly.offsets.toList
        (placed.map Placed.offset ++ [bytes.length]) ∧
      assembly.bytes.length ≤ bytes.length := by
  have built := assemble_eq_ok_iff.mp assembled
  obtain ⟨_, _, nothing, _⟩ := build_eq_ok_iff.mp built
  obtain ⟨own, ownTiling, _, offsets, ⟨count, sizes_eq⟩, _⟩ := tiling_of_build built
  obtain ⟨placed, tiling⟩ := exists_tiling accepted
  have laid := laidOut_of_disassemble accepted tiling same
  have shorter := iterate_pass_le_laidOut laid nothing count
  rw [← sizes_eq] at shorter
  refine ⟨placed, decodeAll_eq_ok_iff.mpr tiling, codes_of_disassemble accepted tiling, ?_, ?_⟩
  · rw [offsets, tiling.offsets_eq]
    exact startOffsets_le shorter
  · rw [← ownTiling.sum_sizes, ← tiling.sum_sizes]
    exact shorter.sum_le_sum

/-- Two jumps, up to the start and out to the end; the first has to be turned. -/
def hop : Script where
  id := 0
  instructions := [.nop, .jump 0, .jump 1]
  labels := #[{ id := 0, name := "top", position := some 0 },
    { id := 1, name := "out", position := some 3 }]

theorem build_hop : hop.build {} = .ok {
    bytes := [0x5F, 0x12, 3, 0x10, 0]
    instructions := [.nop, { opcode := 0x12, operands := [.offset 3] },
      { opcode := 0x10, operands := [.offset 0] }]
    offsets := #[0, 1, 3, 5]
    passes := 1 } :=
  build_of_eval (by decide +kernel) (by decide +kernel) (by decide +kernel)

/-- The same jumps in their long forms. -/
def hopLong : Script where
  id := 0
  instructions := [.nop, { opcode := 0x13, operands := [.label 0] },
    { opcode := 0x11, operands := [.label 1] }]
  labels := #[{ id := 0, name := "label_1", position := some 0 },
    { id := 1, name := "label_2", position := some 3 }]

theorem equivalent_hop : hop.equivalent hopLong = true := by
  decide +kernel

theorem disassemble_hop : disassemble 0 [0x5F, 0x13, 0, 0, 0x11, 7, 0] = .ok hopLong := by
  have pause : Instruction.nop.encode = .ok [0x5F] := rfl
  have back : Instruction.encode { opcode := 0x13, operands := [.offset 0] } = .ok [0x13, 0, 0] :=
    rfl
  have forth : Instruction.encode { opcode := 0x11, operands := [.offset 7] } = .ok [0x11, 7, 0] :=
    rfl
  have tiling := Tiling.cons pause (Tiling.cons back (Tiling.cons forth (.nil 7)))
  have order : positions [none, some 0, some 3] = [0, 3] := by simp [positions, distinct, keepNew]
  refine (disassemble_of_positions tiling ?_ order).trans (by decide +kernel)
  exact .cons ⟨by decide +kernel, by decide⟩ (.cons ⟨by decide +kernel, by decide⟩
    (.cons ⟨by decide +kernel, by decide⟩ .nil))

theorem assemble_shortest_hop :
    ∃ assembly, hop.assemble { script := 0 } = .ok assembly ∧
      disassemble 0 [0x5F, 0x13, 0, 0, 0x11, 7, 0] = .ok hopLong ∧
      hop.equivalent hopLong = true ∧
      ∃ placed, decodeAll [0x5F, 0x13, 0, 0, 0x11, 7, 0] = .ok placed ∧
        placed.map (fun item => item.instruction.opcode) =
          hopLong.instructions.map Instruction.opcode ∧
        List.Forall₂ (· ≤ ·) assembly.offsets.toList (placed.map Placed.offset ++ [7]) ∧
        assembly.bytes.length ≤ 7 := by
  have assembled : hop.assemble { script := 0 } = .ok _ := assemble_eq_ok_iff.mpr build_hop
  exact ⟨_, assembled, disassemble_hop, equivalent_hop,
    assemble_shortest assembled disassemble_hop equivalent_hop⟩

end Script

end SceneScript
