/-
**Assembly succeeds whenever there is an encoding.**

If a script has a layout of at most 65535 bytes, its slots settle below that layout, so that all
branches reach their labels and the script is not too long. What remains to go wrong are two labels
with one name, and conditional branches to a label that is not behind them, which only a long branch
in the bytes can be.

* `Checked.exists_emit`: checked slots can be written;
* `exists_build`: a script with a layout is built if nothing is found before layout;
* `findings_eq_nil_iff_of_laidOut`: what can be found before layout in a script with a layout;
* `nodup_placedNames`: the labels of a disassembled script have different names;
* `forward_iff_of_disassemble`: its conditional branches backward are long in the bytes;
* `assemble_isOk_iff`: which scripts that have an encoding can be assembled.
-/

import SceneScript.Proofs.Convergence
import SceneScript.Proofs.Shortest
import Std.Data.String.ToNat

namespace SceneScript.Script

open Layout Disassembly

/-! ### From a layout to an assembly -/

section Layout

variable {script : Script} {sizes' : List Nat} {config : AssemblyConfig} {slots : List Slot}

/-- Checked slots can be written. -/
theorem Checked.exists_emit {layout : Layout} (checked : script.Checked layout.slots)
    (offsets : layout.offsets = startOffsets (sizes layout.slots)) :
    ∃ assembly, Assembly.emit layout script.instructions = .ok assembly := by
  refine Assembly.exists_emit fun index slot instruction found listed => ?_
  obtain ⟨one, accepted, _⟩ := checked.emitSlot found listed
  exact ⟨one, offsets ▸ accepted⟩

/-- **Settled slots below a layout reach all labels.** -/
theorem reached_of_laidOut (laid : script.LaidOut sizes') (carries : script.Carries slots)
    (sound : Layout.Sound slots) (below : List.Forall₂ (· ≤ ·) (sizes slots) sizes')
    (settled : Settled slots) {index : Nat} {slot : Slot} (found : slots[index]? = some slot) :
    slot.outOfReach (startOffsets (sizes slots)) index = false := by
  refine Bool.eq_false_iff.mpr fun out => ?_
  have sized := getElem?_sizes found
  obtain ⟨form, target, chosen, targeted, short, far⟩ :=
    (Slot.outOfReach_iff (sound.sound_slot found) sized).mp out
  obtain ⟨body, place, _, other, holds, member, kin, fits⟩ := laid.exists_rival carries found
  obtain ⟨rfl, rfl⟩ := holds.eq_of_target chosen targeted
  -- The branch is long in the layout, so it has a long form that it would have been given.
  have long := fits.isLong_of_far below far
  obtain ⟨twin, has⟩ := Option.isSome_iff_exists.mp
    (Opcode.longTwin?_isSome_of_kin holds.member member kin short long)
  have grows := (Slot.promotion?_eq_some_iff (sound.sound_slot found) sized).mpr
    ⟨_, target, holds.chosen, targeted, short, far, has⟩
  rw [settled index slot found] at grows
  cases grows

/-- **A script with a layout is built** if nothing is found before layout and there is no limit on
the passes. -/
theorem exists_build (laid : script.LaidOut sizes') (small : sizes'.sum ≤ 65535)
    (unlimited : config.maxPasses = none) (nothing : script.findings config = []) :
    ∃ assembly, script.build config = .ok assembly := by
  obtain ⟨layout, result, _⟩ := script.exists_layout config unlimited
  obtain ⟨count, _, settled, _, same⟩ := settle_eq_some_iff.mp result
  have slots : layout.slots = Layout.pass^[count] (script.slots config) := by rw [same]
  have offsets : layout.offsets = startOffsets (sizes layout.slots) := by rw [same]
  have carries := iterate_pass (fun _ carries => carries.pass) (carries_slots nothing) count
  have sound := iterate_pass (fun _ sound => sound.pass) (sound_slots config script) count
  have below := iterate_pass_le_laidOut laid nothing count
  rw [← slots] at settled carries sound below
  have checked : script.Checked layout.slots := by
    refine ⟨carries, sound, fun index slot found => ?_, below.sum_le_sum.trans small⟩
    exact reached_of_laidOut laid carries sound below settled found
  obtain ⟨assembly, emitted⟩ := checked.exists_emit offsets
  refine ⟨assembly, build_eq_ok_iff.mpr ⟨layout, result, nothing, ?_, ?_, emitted⟩⟩
  · rw [unreached_eq_nil_iff, offsets]
    exact checked.reached
  · rw [oversize_eq_nil_iff, Layout.total, offsets, back?_startOffsets]
    exact checked.small

end Layout

/-! ### What can be found before layout -/

/-- Every conditional branch of a script goes to a label behind it. -/
def ConditionalsForward (script : Script) : Prop :=
  ∀ (index : Nat) (instruction : Instruction) (opcode : Opcode) (label place : Nat),
    script.instructions[index]? = some instruction → instruction.opcode? = some opcode →
    opcode.flow.isConditional = true → instruction.target? = some label →
    script.position? label = some place → index < place

section Findings

variable {script : Script} {sizes' : List Nat} {config : AssemblyConfig} {index : Nat}
  {instruction : Instruction} {opcode : Opcode} {body : List UInt8} {place : Option Nat}

/-- If jumps may be turned, the only thing that can be wrong with an instruction that has a meaning
is a conditional branch that does not go forward. -/
theorem faults_eq_nil_iff (flips : config.flipJumps = true)
    (denotes : script.Denotes instruction opcode body place) :
    (Slot.prepare config script.labels script.size index instruction).2 = [] ↔
      ∀ target ∈ place, opcode.flow.isConditional = true → index < target := by
  obtain ⟨familyRow, flow, kin⟩ := Opcode.family_mem denotes.member
  have aims : ∀ target ∈ place,
      ((∃ aimed, Slot.aim config opcode.family (decide (target ≤ index)) = .ok aimed) ↔
        (opcode.flow.isConditional = true → index < target)) := by
    intro target aimed
    have branches : opcode.family.flow.hasTarget = true := by
      rw [Opcode.hasTarget_eq_of_kin familyRow denotes.member kin, denotes.hasTarget_eq, aimed]
      rfl
    rw [Slot.aim_isOk_iff flips familyRow branches, flow, Flow.isConditional_resize,
      decide_eq_true_iff, not_and, not_le]
  constructor
  · intro sound target aimed
    obtain ⟨_, _, _, denotes', each⟩ := Slot.denotes_of_prepare sound
    obtain ⟨rfl, rfl, rfl⟩ := denotes.unique denotes'
    exact (aims target aimed).mp (each target aimed)
  · intro forward
    exact (Slot.prepare_of_denotes denotes fun target aimed =>
      (aims target aimed).mpr (forward target aimed)).1

/-- The conditional branches of a script whose instructions have a meaning. -/
theorem conditionalsForward_iff
    (meant : ∀ {index : Nat} {instruction : Instruction},
      script.instructions[index]? = some instruction →
      ∃ opcode body place, script.Denotes instruction opcode body place) :
    script.ConditionalsForward ↔
      ∀ {index : Nat} {instruction : Instruction} {opcode : Opcode} {body : List UInt8}
        {place : Option Nat}, script.instructions[index]? = some instruction →
        script.Denotes instruction opcode body place →
        ∀ target ∈ place, opcode.flow.isConditional = true → index < target := by
  constructor
  · intro forward index instruction opcode body place listed denotes target aimed conditional
    obtain rfl := Option.mem_def.mp aimed
    obtain ⟨label, named, position⟩ := denotes.exists_label
    exact forward index instruction opcode label target listed denotes.known conditional named
      position
  · intro forward index instruction opcode label target listed known conditional named position
    obtain ⟨_, body, place, denotes⟩ := meant listed
    obtain rfl := Option.some.inj (known.symm.trans denotes.known)
    exact forward listed denotes target (denotes.place_eq named position) conditional

/-- **In a script with a layout**, all that can be found before layout are two labels with one name
and conditional branches that do not go forward. -/
theorem findings_eq_nil_iff_of_laidOut (laid : script.LaidOut sizes')
    (flips : config.flipJumps = true) :
    script.findings config = [] ↔ script.placedNames.Nodup ∧ script.ConditionalsForward := by
  have meant : ∀ {index : Nat} {instruction : Instruction},
      script.instructions[index]? = some instruction →
      ∃ opcode body place, script.Denotes instruction opcode body place := by
    intro index instruction listed
    obtain ⟨opcode, body, place, _, denotes, _⟩ := laid.fits listed
    exact ⟨opcode, body, place, denotes⟩
  rw [findings_eq_nil_iff, conditionalsForward_iff meant]
  refine and_congr_right fun _ => ⟨fun sound => ?_, fun forward => ?_⟩
  · intro index instruction opcode body place listed denotes
    exact (faults_eq_nil_iff flips denotes).mp (sound index instruction listed)
  · intro index instruction listed
    obtain ⟨opcode, body, place, denotes⟩ := meant listed
    exact (faults_eq_nil_iff flips denotes).mpr (forward listed denotes)

end Findings

/-! ### Disassembled scripts -/

section Disassembled

variable {id : UInt8} {bytes : List UInt8} {decoded : Script}

/-- The labels of a disassembled script are named by their numbers. -/
theorem placedNames_script (id : UInt8) (placed : List Placed) (targets : List (Option Nat)) :
    (Disassembly.script id placed targets).placedNames =
      (List.range (positions targets).length).map fun id => s!"label_{id + 1}" := by
  have labels : (Disassembly.script id placed targets).labels.toList =
      (positions targets).mapIdx fun id position => synthesize position id := by
    simp [Disassembly.script]
  have all : ∀ label ∈ (positions targets).mapIdx fun id position => synthesize position id,
      label.position.isSome = true := by
    intro label member
    obtain ⟨index, inside, rfl⟩ := List.mem_mapIdx.mp member
    rfl
  rw [placedNames, labels, List.filter_eq_self.mpr all]
  refine List.ext_getElem (by simp) fun index inside inside' => ?_
  simp [synthesize]

/-- **The labels of a disassembled script have different names.** -/
theorem nodup_placedNames (accepted : disassemble id bytes = .ok decoded) :
    decoded.placedNames.Nodup := by
  obtain ⟨placed, targets, _, _, rfl⟩ := disassemble_eq_ok_iff.mp accepted
  rw [placedNames_script]
  refine List.Nodup.map (fun first second same => ?_) List.nodup_range
  have digits : toString (first + 1) = toString (second + 1) := by simpa using same
  exact Nat.succ.inj (Nat.repr_inj.mp digits)

/-- A disassembled script is equivalent to itself: all of its labels have a place. -/
theorem equivalent_self (accepted : disassemble id bytes = .ok decoded) :
    decoded.equivalent decoded = true := by
  obtain ⟨placed, tiling⟩ := exists_tiling accepted
  refine equivalent_iff.mpr ⟨rfl, fun index x y found found' => ?_⟩
  obtain rfl := Option.some.inj (found.symm.trans found')
  obtain ⟨_, opcode, _, _, _, denotes, _⟩ := exists_placed_of_disassemble accepted tiling found
  exact (sameInstruction_iff rfl denotes).mpr ⟨opcode, denotes, rfl⟩

/-- **A conditional branch of a disassembled script that does not go forward is long in the
bytes**, and leads to its own place or before it. -/
theorem forward_iff_of_disassemble (accepted : disassemble id bytes = .ok decoded)
    {placed : List Placed} (tiling : Tiling 0 placed bytes) :
    decoded.ConditionalsForward ↔
      ∀ item ∈ placed, ∀ opcode destination, item.instruction.opcode? = some opcode →
        opcode.flow = .conditional .long → item.destination? = some destination →
        item.offset < destination := by
  have meant : ∀ {index : Nat} {instruction : Instruction},
      decoded.instructions[index]? = some instruction →
      ∃ opcode body place, decoded.Denotes instruction opcode body place := by
    intro index instruction listed
    obtain ⟨_, opcode, body, place, _, denotes, _⟩ :=
      exists_placed_of_disassemble accepted tiling listed
    exact ⟨opcode, body, place, denotes⟩
  rw [conditionalsForward_iff meant]
  constructor
  · intro forward item member opcode destination known flow lands
    obtain ⟨index, found⟩ := List.mem_iff_getElem?.mp member
    obtain ⟨instruction, _, body, place, listed, denotes, known', landing, fits⟩ :=
      denotes_of_disassemble accepted tiling found
    obtain rfl := Option.some.inj (known.symm.trans known')
    rw [landing.1] at lands
    obtain ⟨target, rfl, rfl⟩ := Option.map_eq_some_iff.mp lands
    have behind := forward listed denotes target rfl (by rw [flow]; rfl)
    have places := offsetAt_lt_offsetAt tiling.size_pos behind (fits.inside target rfl)
    rw [(tiling.placed_at found).1]
    omega
  · intro apart index instruction opcode body place listed denotes target aimed conditional
    obtain ⟨item, _, _, _, found, denotes', known, landing, fits⟩ :=
      exists_placed_of_disassemble accepted tiling listed
    obtain ⟨rfl, rfl, rfl⟩ := denotes.unique denotes'
    by_contra before
    have flow := fits.flow_of_not_forward aimed conditional before
    have lands := landing.1
    rw [aimed, Option.map_some] at lands
    have places := apart item (List.mem_of_getElem? found) opcode _ known flow lands
    have ordered := offsetAt_le_offsetAt (placed.map Placed.size) (Nat.le_of_not_lt before)
    rw [(tiling.placed_at found).1] at places
    omega

end Disassembled

/-- **Which scripts that have an encoding can be assembled**: of the scripts equivalent to what some
bytes hold, those whose labels have different names and whose conditional branches go forward. What
the bytes hold can be assembled again unless a long conditional branch leads to its own place or
before it. -/
theorem assemble_isOk_iff {id : UInt8} {bytes : List UInt8} {decoded : Script}
    (accepted : disassemble id bytes = .ok decoded) (small : bytes.length ≤ 65535)
    (origin : Origin) :
    (∀ script : Script, script.equivalent decoded = true →
      ((∃ assembly, script.assemble origin = .ok assembly) ↔
        script.placedNames.Nodup ∧ script.ConditionalsForward)) ∧
    ∃ placed, decodeAll bytes = .ok placed ∧
      ((∃ assembly, decoded.assemble origin = .ok assembly) ↔
        ∀ item ∈ placed, ∀ opcode destination, item.instruction.opcode? = some opcode →
          opcode.flow = .conditional .long → item.destination? = some destination →
          item.offset < destination) := by
  obtain ⟨placed, tiling⟩ := exists_tiling accepted
  have general : ∀ script : Script, script.equivalent decoded = true →
      ((∃ assembly, script.assemble origin = .ok assembly) ↔
        script.placedNames.Nodup ∧ script.ConditionalsForward) := by
    intro script same
    have laid := laidOut_of_disassemble accepted tiling same
    have found : script.findings {} = [] ↔ _ := findings_eq_nil_iff_of_laidOut laid rfl
    rw [← found]
    simp only [assemble_eq_ok_iff]
    constructor
    · rintro ⟨assembly, built⟩
      obtain ⟨_, _, nothing, _⟩ := build_eq_ok_iff.mp built
      exact nothing
    · exact exists_build laid (tiling.sum_sizes ▸ small) rfl
  refine ⟨general, placed, decodeAll_eq_ok_iff.mpr tiling, ?_⟩
  rw [general decoded (equivalent_self accepted), ← forward_iff_of_disassemble accepted tiling]
  exact and_iff_right (nodup_placedNames accepted)

/-- A long conditional branch to itself. -/
def spin : Instruction where
  opcode := 0x15
  operands := [.scalar 0, .scalar 0, .scalar 0, .scalar 0, .offset 0]

theorem assemble_isOk_iff_hop_and_spin :
    (disassemble 0 [0x5F, 0x13, 0, 0, 0x11, 7, 0] = .ok hopLong ∧
      hop.equivalent hopLong = true ∧
      ((∃ assembly, hop.assemble { script := 0 } = .ok assembly) ↔
        hop.placedNames.Nodup ∧ hop.ConditionalsForward)) ∧
    ∃ decoded, disassemble 0 [0x15, 0, 0, 0, 0, 0, 0] = .ok decoded ∧
      ¬∃ assembly, decoded.assemble { script := 0 } = .ok assembly := by
  constructor
  · exact ⟨disassemble_hop, equivalent_hop,
      (assemble_isOk_iff disassemble_hop (by decide) { script := 0 }).1 hop equivalent_hop⟩
  · have encoded : spin.encode = .ok [0x15, 0, 0, 0, 0, 0, 0] := rfl
    have tiling := Tiling.cons encoded (.nil 7)
    have accepted : ∃ decoded, disassemble 0 [0x15, 0, 0, 0, 0, 0, 0] = .ok decoded := by
      refine exists_disassemble 0 tiling fun item member => ⟨some 0, ?_⟩
      rw [List.mem_singleton.mp member]
      exact ⟨by decide +kernel, by decide⟩
    obtain ⟨decoded, accepted⟩ := accepted
    refine ⟨decoded, accepted, ?_⟩
    obtain ⟨placed, read, again⟩ :=
      (assemble_isOk_iff accepted (by decide) { script := 0 }).2
    obtain rfl := tiling.unique (decodeAll_eq_ok_iff.mp read)
    rw [again]
    intro apart
    have row : ∃ opcode ∈ spin.opcode?, opcode.flow = .conditional .long := by decide +kernel
    obtain ⟨opcode, known, flow⟩ := row
    have before := apart _ List.mem_cons_self opcode 0 known flow (by decide +kernel)
    exact absurd before (by decide)

end SceneScript.Script
