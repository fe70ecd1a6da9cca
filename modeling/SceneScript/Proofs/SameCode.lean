/-
**Which scripts have the same code.**

What is written of a script follows from the meanings of its instructions. So equivalent scripts are
assembled alike, down to the number of passes, whatever their labels are called and in whichever
width and direction their branches were given; and the bytes hold the meanings, so that scripts with
the same bytes are equivalent.

* `unlabelled_slots_eq`: equivalent scripts start layout with the same slots, up to the numbers of
  their labels;
* `build_of_equivalent`: a script is built like an equivalent one, if nothing is found before layout
  and its passes are not limited further;
* `exists_rebuilt`: what is built is disassembled to a script with the same meanings;
* `equivalent_iff_bytes_eq`: of the scripts that can be assembled, those with the same bytes are the
  equivalent ones;
* `findings_eq_nil_of_equivalent`: nothing is wrong with a script that is equivalent to a faultless
  one in the same opcodes;
* `assemble_rebuilt`: disassembling and assembling again changes nothing in an assembly.
-/

import SceneScript.Proofs.Reassembly
import SceneScript.Proofs.Unlabelled

namespace SceneScript

open Layout Disassembly

/-- A layout is written like another with the same places and passes, if each of its slots is. -/
theorem Assembly.emit_congr {layout layout' : Layout}
    {instructions instructions' : List Instruction}
    (lengths : (layout.slots.zip instructions).length = (layout'.slots.zip instructions').length)
    (offsets : layout.offsets = layout'.offsets) (passes : layout.passes = layout'.passes)
    (each : ∀ (index : Nat) (slot slot' : Slot) (instruction instruction' : Instruction),
      layout.slots[index]? = some slot → instructions[index]? = some instruction →
      layout'.slots[index]? = some slot' → instructions'[index]? = some instruction' →
      emitSlot layout.offsets index slot instruction =
        emitSlot layout'.offsets index slot' instruction') :
    emit layout instructions = emit layout' instructions' := by
  have results : (layout.slots.zip instructions).zipIdx.map
        (fun item => emitSlot layout.offsets item.2 item.1.1 item.1.2) =
      (layout'.slots.zip instructions').zipIdx.map
        (fun item => emitSlot layout'.offsets item.2 item.1.1 item.1.2) := by
    refine List.ext_getElem (by simpa using lengths) fun index inside inside' => ?_
    simp only [List.length_map, List.length_zipIdx, List.length_zip, Nat.lt_min] at inside inside'
    simp only [List.getElem_map, List.getElem_zipIdx, List.getElem_zip, Nat.zero_add]
    exact each index _ _ _ _ (List.getElem?_eq_getElem inside.1) (List.getElem?_eq_getElem inside.2)
      (List.getElem?_eq_getElem inside'.1) (List.getElem?_eq_getElem inside'.2)
  have traversed : ∀ (layout : Layout) (instructions : List Instruction),
      emit layout instructions = do
        let written ← ((layout.slots.zip instructions).zipIdx.map
          (fun item => emitSlot layout.offsets item.2 item.1.1 item.1.2)).mapM id
        return {
          bytes := written.flatMap Prod.snd
          instructions := written.map Prod.fst
          offsets := layout.offsets
          passes := layout.passes } := by
    intro layout instructions
    rw [List.mapM_map]
    rfl
  rw [traversed, traversed, results, offsets, passes]

namespace Script

variable {left right script : Script} {config config' : AssemblyConfig} {assembly : Assembly}

/-! ### Equivalent scripts are assembled alike -/

/-- Equivalent scripts give one meaning to the instructions at one index. -/
theorem denotes_of_equivalent (same : left.equivalent right = true) {index : Nat}
    {x y : Instruction} (listed : left.instructions[index]? = some x)
    (listed' : right.instructions[index]? = some y) {opcode : Opcode} {body : List UInt8}
    {place : Option Nat} (denotes : left.Denotes x opcode body place) :
    ∃ other, right.Denotes y other body place ∧ canonicalCode other = canonicalCode opcode := by
  obtain ⟨sizes, each⟩ := equivalent_iff.mp same
  exact (sameInstruction_iff sizes denotes).mp (each index x y listed listed')

/-- The slot of an instruction that nothing is wrong with holds its meaning in a short form. -/
theorem exists_short_form (nothing : script.findings config = []) {index : Nat}
    {instruction : Instruction} (listed : script.instructions[index]? = some instruction)
    {opcode : Opcode} {body : List UInt8} {place : Option Nat}
    (denotes : script.Denotes instruction opcode body place) :
    ∃ slot form, (script.slots config)[index]? = some slot ∧ slot.Holds index form body place ∧
      canonicalCode form = canonicalCode opcode ∧ form.flow.isLong = false := by
  have sound := (findings_eq_nil_iff.mp nothing).2 index instruction listed
  obtain ⟨_, _, _, denotes', aims⟩ := Slot.denotes_of_prepare sound
  obtain ⟨rfl, rfl, rfl⟩ := denotes.unique denotes'
  obtain ⟨_, form, holds, kin, short⟩ := Slot.prepare_of_denotes denotes aims
  refine ⟨_, form, ?_, holds, kin, short⟩
  rw [getElem?_slots, listed]
  rfl

/-- The direction of a form that holds a meaning follows from its index and its target. -/
theorem isBackward_of_holds {slot : Slot} {index : Nat} {form : Opcode} {body : List UInt8}
    {place : Option Nat} (holds : slot.Holds index form body place) :
    form.flow.isBackward = (place.map fun target => decide (target ≤ index)).getD false := by
  cases place with
  | some target => exact holds.side target rfl
  | none =>
    have still := holds.hasTarget_eq
    cases flow : form.flow <;> rw [flow] at still <;> first | rfl | cases still

/-- **Equivalent scripts start layout with the same slots**, up to the numbers of their labels. -/
theorem unlabelled_slots_eq (same : left.equivalent right = true)
    (nothing : left.findings config = []) (nothing' : right.findings config' = []) :
    (left.slots config).map Slot.unlabelled = (right.slots config').map Slot.unlabelled := by
  have sizes := (equivalent_iff.mp same).1
  refine List.ext_getElem (by simp [sizes]) fun index inside inside' => ?_
  simp only [List.length_map, length_slots] at inside inside'
  have listed := List.getElem?_eq_getElem inside
  have listed' := List.getElem?_eq_getElem inside'
  obtain ⟨opcode, body, place, denotes, _⟩ :=
    Slot.denotes_of_prepare ((findings_eq_nil_iff.mp nothing).2 index _ listed)
  obtain ⟨other, denotes', kin⟩ := denotes_of_equivalent same listed listed' denotes
  obtain ⟨slot, form, found, holds, formKin, short⟩ := exists_short_form nothing listed denotes
  obtain ⟨slot', form', found', holds', formKin', short'⟩ :=
    exists_short_form nothing' listed' denotes'
  have forms : form = form' := by
    refine Opcode.eq_of_kin holds.member holds'.member ?_ (short.trans short'.symm) ?_
    · rw [formKin, ← kin, formKin']
    · rw [isBackward_of_holds holds, isBackward_of_holds holds']
  have own : slot.unlabelled = slot'.unlabelled := by
    rw [holds.unlabelled_eq (sound_slots config left index slot found),
      holds'.unlabelled_eq (sound_slots config' right index slot' found'), forms]
  simpa [(List.getElem?_eq_some_iff.mp found).2, (List.getElem?_eq_some_iff.mp found').2] using own

/-- Checked slots of equivalent scripts are written alike, if they differ in the numbers of labels
alone. -/
theorem Checked.emitSlot_eq {slots slots' : List Slot} (same : left.equivalent right = true)
    (checked : left.Checked slots) (checked' : right.Checked slots')
    (alike : slots.map Slot.unlabelled = slots'.map Slot.unlabelled) {index : Nat}
    {slot slot' : Slot} (found : slots[index]? = some slot) (found' : slots'[index]? = some slot')
    {x y : Instruction} (listed : left.instructions[index]? = some x)
    (listed' : right.instructions[index]? = some y) :
    Assembly.emitSlot (startOffsets (sizes slots)) index slot x =
      Assembly.emitSlot (startOffsets (sizes slots')) index slot' y := by
  obtain ⟨_, opcode, body, place, form, own, denotes, holds, kin, fits⟩ := checked.fits found
  obtain ⟨_, opcode', body', place', form', own', denotes', holds', kin', fits'⟩ :=
    checked'.fits found'
  obtain rfl := Option.some.inj (listed.symm.trans own)
  obtain rfl := Option.some.inj (listed'.symm.trans own')
  obtain ⟨_, denotes'', _⟩ := denotes_of_equivalent same listed listed' denotes
  obtain ⟨rfl, rfl, rfl⟩ := denotes'.unique denotes''
  have forms : form = form' := by
    have opcodes := congrArg Slot.opcode (unlabelled_eq_of_found alike found found')
    rw [Slot.opcode_unlabelled, Slot.opcode_unlabelled, holds.chosen, holds'.chosen] at opcodes
    exact Option.some.inj opcodes
  subst forms
  have places := sizes_eq_of_unlabelled_eq alike
  rw [← places] at fits' ⊢
  obtain ⟨resolved, bytes, accepted, encoded, _, parts⟩ :=
    Assembly.emitSlot_of_fits denotes kin holds (checked.sound.sound_slot found) fits
  obtain ⟨resolved', bytes', accepted', encoded', _, parts'⟩ :=
    Assembly.emitSlot_of_fits denotes' kin' holds'
      (places ▸ checked'.sound.sound_slot found') fits'
  obtain rfl := parts.unique parts'
  rw [encoded] at encoded'
  cases encoded'
  rw [accepted, accepted']

/-- **A script is built like an equivalent one**, if nothing is found before layout and the passes
that the other took are allowed. -/
theorem build_of_equivalent (built : left.build config = .ok assembly)
    (same : left.equivalent right = true) (nothing : right.findings config' = [])
    (enough : assembly.passes ≤ passLimit config' right.size) :
    right.build config' = .ok assembly := by
  obtain ⟨layout, settled, nothing₀, reached, small, emitted⟩ := build_eq_ok_iff.mp built
  rw [passes_of_build settled built] at enough
  have start := unlabelled_slots_eq same nothing₀ nothing
  obtain ⟨layout', settled', alike, offsets, passes⟩ :=
    settle_of_unlabelled_eq start settled enough
  have lengths : layout.slots.length = layout'.slots.length := by
    simpa using congrArg List.length alike
  have reached' : Assembly.unreached right.labels layout' = [] := by
    refine unreached_eq_nil_iff.mpr fun index slot' found' => ?_
    have inside : index < layout.slots.length := by
      rw [lengths]
      exact (List.getElem?_eq_some_iff.mp found').1
    have found := List.getElem?_eq_getElem inside
    rw [← Slot.outOfReach_unlabelled, ← unlabelled_eq_of_found alike found found', offsets,
      Slot.outOfReach_unlabelled]
    exact unreached_eq_nil_iff.mp reached index _ found
  have small' : Assembly.oversize layout' = [] := by
    rw [oversize_eq_nil_iff, Layout.total, offsets]
    exact oversize_eq_nil_iff.mp small
  obtain ⟨places, checked⟩ := checked_of_settle nothing₀ settled reached small
  obtain ⟨places', checked'⟩ := checked_of_settle nothing settled' reached' small'
  refine build_eq_ok_iff.mpr ⟨layout', settled', nothing, reached', small', ?_⟩
  rw [← emitted]
  refine (Assembly.emit_congr ?_ offsets.symm passes.symm ?_).symm
  · rw [List.length_zip, List.length_zip, lengths]
    exact congrArg _ (equivalent_iff.mp same).1
  · intro index slot slot' x y found listed found' listed'
    rw [places, places']
    exact Checked.emitSlot_eq same checked checked' alike found found' listed listed'

/-! ### Bytes hold the meanings -/

/-- Scripts whose instructions have the same meanings, one by one. -/
structure SameMeanings (left right : Script) : Prop where
  size_eq : left.size = right.size
  each : ∀ {index : Nat} {x : Instruction}, left.instructions[index]? = some x →
    ∃ y opcode other body place, right.instructions[index]? = some y ∧
      left.Denotes x opcode body place ∧ right.Denotes y other body place ∧
      canonicalCode other = canonicalCode opcode

theorem SameMeanings.symm (same : left.SameMeanings right) : right.SameMeanings left := by
  refine ⟨same.size_eq.symm, fun {index y} listed' => ?_⟩
  have inside : index < left.size := by
    rw [same.size_eq]
    exact (List.getElem?_eq_some_iff.mp listed').1
  have listed := List.getElem?_eq_getElem inside
  obtain ⟨own, opcode, other, body, place, found, denotes, denotes', kin⟩ := same.each listed
  obtain rfl := Option.some.inj (listed'.symm.trans found)
  exact ⟨_, other, opcode, body, place, listed, denotes', denotes, kin.symm⟩

theorem SameMeanings.trans {middle : Script} (same : left.SameMeanings middle)
    (same' : middle.SameMeanings right) : left.SameMeanings right := by
  refine ⟨same.size_eq.trans same'.size_eq, fun {index x} listed => ?_⟩
  obtain ⟨y, opcode, between, body, place, found, denotes, denotes', kin⟩ := same.each listed
  obtain ⟨z, _, other, _, _, found', denotes'', final, kin'⟩ := same'.each found
  obtain ⟨rfl, rfl, rfl⟩ := denotes'.unique denotes''
  exact ⟨z, opcode, other, body, place, found', denotes, final, kin'.trans kin⟩

theorem SameMeanings.equivalent (same : left.SameMeanings right) :
    left.equivalent right = true := by
  refine equivalent_iff.mpr ⟨same.size_eq, fun index x y listed listed' => ?_⟩
  obtain ⟨_, opcode, other, body, place, found, denotes, denotes', kin⟩ := same.each listed
  obtain rfl := Option.some.inj (listed'.symm.trans found)
  exact (sameInstruction_iff same.size_eq denotes).mpr ⟨other, denotes', kin⟩

/-- **What is built is disassembled to a script with the same meanings.** -/
theorem exists_rebuilt (built : script.build config = .ok assembly) (id : UInt8) :
    ∃ decoded, disassemble id assembly.bytes = .ok decoded ∧ script.SameMeanings decoded := by
  obtain ⟨placed, tiling, length, _, _, parts⟩ := tiling_of_build built
  have lands : ∀ item ∈ placed, ∃ target, LandsAt (placed.map Placed.size) item target := by
    intro item among
    obtain ⟨index, found⟩ := List.mem_iff_getElem?.mp among
    obtain ⟨_, _, _, place, _, _, _, _, _, _, landing⟩ := parts index item found
    exact ⟨place, landing⟩
  obtain ⟨decoded, accepted⟩ := exists_disassemble id tiling lands
  refine ⟨decoded, accepted, ?_, fun {index x} listed => ?_⟩
  · rw [← length]
    exact (size_of_disassemble accepted tiling).symm
  · have inside : index < placed.length := by
      rw [length]
      exact (List.getElem?_eq_some_iff.mp listed).1
    have found := List.getElem?_eq_getElem inside
    obtain ⟨_, opcode, body, place, form, raw, own, denotes, kin, resolved, landing⟩ :=
      parts index _ found
    obtain rfl := Option.some.inj (listed.symm.trans own)
    obtain ⟨y, listed', denotes'⟩ := denotes_of_lands accepted tiling found resolved landing
    exact ⟨y, opcode, form, body, place, listed', denotes, denotes', kin⟩

/-- **Of the scripts that can be assembled, those with the same bytes are the equivalent ones.** -/
theorem equivalent_iff_bytes_eq {origin origin' : Origin} {assembly' : Assembly}
    (assembled : left.assemble origin = .ok assembly)
    (assembled' : right.assemble origin' = .ok assembly') :
    left.equivalent right = true ↔ assembly.bytes = assembly'.bytes := by
  have built := assemble_eq_ok_iff.mp assembled
  have built' := assemble_eq_ok_iff.mp assembled'
  constructor
  · intro same
    obtain ⟨_, _, nothing, _⟩ := build_eq_ok_iff.mp built'
    have enough : assembly.passes ≤ passLimit {} right.size := by
      rw [← (equivalent_iff.mp same).1]
      exact passes_le_of_build built
    have again := build_of_equivalent built same nothing enough
    rw [built'] at again
    cases again
    rfl
  · intro bytes
    obtain ⟨decoded, accepted, same⟩ := exists_rebuilt built 0
    obtain ⟨decoded', accepted', same'⟩ := exists_rebuilt built' 0
    rw [bytes, accepted'] at accepted
    cases accepted
    exact (same.trans same'.symm).equivalent

theorem build_hopLong : hopLong.build {} = .ok {
    bytes := [0x5F, 0x12, 3, 0x10, 0]
    instructions := [.nop, { opcode := 0x12, operands := [.offset 3] },
      { opcode := 0x10, operands := [.offset 0] }]
    offsets := #[0, 1, 3, 5]
    passes := 1 } :=
  build_of_eval (by decide +kernel) (by decide +kernel) (by decide +kernel)

/-- Jumps in both widths are the same code; a script with another instruction is not. -/
theorem equivalent_iff_bytes_eq_hop :
    ∃ short long other, hop.assemble { script := 0 } = .ok short ∧
      hopLong.assemble { script := 1 } = .ok long ∧ leap.assemble { script := 2 } = .ok other ∧
      (hop.equivalent hopLong = true ↔ short.bytes = long.bytes) ∧ short.bytes = long.bytes ∧
      (hop.equivalent leap = true ↔ short.bytes = other.bytes) ∧ short.bytes ≠ other.bytes := by
  have short : hop.assemble { script := 0 } = .ok _ := assemble_eq_ok_iff.mpr build_hop
  have long : hopLong.assemble { script := 1 } = .ok _ := assemble_eq_ok_iff.mpr build_hopLong
  have other : leap.assemble { script := 2 } = .ok _ := assemble_eq_ok_iff.mpr build_leap
  exact ⟨_, _, _, short, long, other, equivalent_iff_bytes_eq short long, rfl,
    equivalent_iff_bytes_eq short other, by decide +kernel⟩

/-! ### The rebuild cycle -/

/-- If nothing is wrong with a script, its conditional branches go forward. -/
theorem conditional_forward (nothing : script.findings config = []) {index : Nat}
    {instruction : Instruction} (listed : script.instructions[index]? = some instruction)
    {opcode : Opcode} {body : List UInt8} {target : Nat}
    (denotes : script.Denotes instruction opcode body (some target))
    (conditional : opcode.flow.isConditional = true) : index < target := by
  obtain ⟨slot, form, _, holds, kin, _⟩ := exists_short_form nothing listed denotes
  rw [← Opcode.isConditional_eq_of_kin holds.member denotes.member kin] at conditional
  have side := holds.side target rfl
  rw [Flow.isBackward_of_isConditional conditional] at side
  exact Nat.lt_of_not_le (of_decide_eq_false side.symm)

/-- **Nothing is wrong with a script that has the meanings of a faultless one**, if its labels have
different names and its jumps may be turned. -/
theorem SameMeanings.findings_eq_nil (same : left.SameMeanings right)
    (nothing : left.findings config = []) (names : right.placedNames.Nodup)
    (flips : config'.flipJumps = true) : right.findings config' = [] := by
  refine findings_eq_nil_iff.mpr ⟨names, fun index y listed' => ?_⟩
  obtain ⟨x, other, opcode, body, place, listed, denotes', denotes, kin⟩ :=
    same.symm.each listed'
  refine (faults_eq_nil_iff flips denotes').mpr fun target aimed conditional => ?_
  cases aimed
  rw [← Opcode.isConditional_eq_of_kin denotes.member denotes'.member kin] at conditional
  exact conditional_forward nothing listed denotes conditional

/-- **Nothing is wrong with a script that is equivalent to a faultless one**, if it has the same
opcodes and its labels have different names. -/
theorem findings_eq_nil_of_equivalent (same : left.equivalent right = true)
    (opcodes : right.instructions.map Instruction.opcode =
      left.instructions.map Instruction.opcode)
    (nothing : left.findings config = []) (names : right.placedNames.Nodup) :
    right.findings config = [] := by
  refine findings_eq_nil_iff.mpr ⟨names, fun index y listed' => ?_⟩
  have inside : index < left.size := by
    rw [(equivalent_iff.mp same).1]
    exact (List.getElem?_eq_some_iff.mp listed').1
  have listed := List.getElem?_eq_getElem inside
  obtain ⟨opcode, body, place, denotes, aims⟩ :=
    Slot.denotes_of_prepare ((findings_eq_nil_iff.mp nothing).2 index _ listed)
  obtain ⟨other, denotes', _⟩ := denotes_of_equivalent same listed listed' denotes
  have rows : other = opcode := by
    have codes := congrArg (·[index]?) opcodes
    simp only [List.getElem?_map, listed, listed', Option.map_some, Option.some.injEq] at codes
    have known := denotes'.known
    rw [Instruction.opcode?, codes] at known
    exact Option.some.inj (known.symm.trans denotes.known)
  subst rows
  exact (Slot.prepare_of_denotes denotes' aims).1

/-- **Disassembling and assembling again changes nothing in an assembly**: neither the bytes, nor
the written instructions, nor the places, nor the number of passes. -/
theorem assemble_rebuilt {origin : Origin}
    (assembled : script.assemble origin config = .ok assembly) (id : UInt8) (origin' : Origin) :
    ∃ decoded, disassemble id assembly.bytes = .ok decoded ∧
      decoded.assemble origin' = .ok assembly := by
  have built := assemble_eq_ok_iff.mp assembled
  obtain ⟨_, _, nothing, _⟩ := build_eq_ok_iff.mp built
  obtain ⟨decoded, accepted, same⟩ := exists_rebuilt built id
  refine ⟨decoded, accepted, assemble_eq_ok_iff.mpr ?_⟩
  refine build_of_equivalent built same.equivalent ?_ ?_
  · exact same.findings_eq_nil nothing (nodup_placedNames accepted) rfl
  · rw [← same.size_eq]
    exact passes_le_of_build built

/-- Two passes are allowed, and both are needed. -/
theorem assemble_rebuilt_leap :
    ∃ assembly, leap.assemble { script := 0 } { maxPasses := some 2 } = .ok assembly ∧
      assembly.passes = 2 ∧
      ∃ decoded, disassemble 7 assembly.bytes = .ok decoded ∧
        decoded.assemble { script := 7 } = .ok assembly := by
  obtain ⟨_, _, nothing, _⟩ := build_eq_ok_iff.mp build_leap
  have limited : leap.build { maxPasses := some 2 } = .ok _ :=
    build_of_equivalent build_leap (by decide +kernel) nothing (by decide)
  have assembled : leap.assemble { script := 0 } { maxPasses := some 2 } = .ok _ :=
    assemble_eq_ok_iff.mpr limited
  exact ⟨_, assembled, rfl, assemble_rebuilt assembled 7 { script := 7 }⟩

end Script

end SceneScript
