/-
**What the settings of the assembler change.**

The settings can only make assembly fail: where it succeeds, it gives what the default settings
give. A limit on the passes stops a script that would have settled later, and without the leave to
turn jumps every jump has to be written in the direction in which its label lies.

* `Slot.aim_isOk_iff_default`: which branches have an opcode under given settings;
* `findings_eq_nil_iff_default`: what the settings add to what is found before layout;
* `build_eq_ok_iff_default`, `assemble_eq_ok_iff_default`: a script is assembled under given
  settings if it is under the default ones, to the same assembly, and the settings allow for its
  passes and its jumps.
-/

import SceneScript.Proofs.SameCode

namespace SceneScript

/-- **Under given settings a branch has an opcode** if it has one under the default settings, and
jumps may be turned or this one need not be. -/
theorem Slot.aim_isOk_iff_default {config : AssemblyConfig} {opcode : Opcode} {backward : Bool} :
    (∃ aimed, aim config opcode backward = .ok aimed) ↔
      (∃ aimed, aim {} opcode backward = .ok aimed) ∧
        (config.flipJumps = true ∨
          (opcode.flow.isJump = true → opcode.flow.isBackward = backward)) := by
  unfold aim
  by_cases same : opcode.flow.isBackward = backward
  · simp [same]
  · cases turned : opcode.reversed? with
    | none => simp [same]
    | some reversed =>
      have jumps := Opcode.isJump_of_reversed? turned
      cases flips : config.flipJumps <;> simp [same, jumps]

namespace Script

open Layout

/-- If an instruction is a jump, it is written in the direction in which its label lies. -/
def JumpAimed (script : Script) (index : Nat) (instruction : Instruction) : Prop :=
  ∀ (opcode : Opcode) (label place : Nat), instruction.opcode? = some opcode →
    opcode.flow.isJump = true → instruction.target? = some label →
    script.position? label = some place → (opcode.flow.isBackward = true ↔ place ≤ index)

/-- Every jump of a script is written in the direction in which its label lies. -/
def JumpsAimed (script : Script) : Prop :=
  ∀ (index : Nat) (instruction : Instruction), script.instructions[index]? = some instruction →
    script.JumpAimed index instruction

variable {script : Script} {config : AssemblyConfig}

/-- An instruction with a meaning is aimed if, in case it is a jump, its short form goes to the side
of its target. -/
theorem jumpAimed_iff {index : Nat} {instruction : Instruction} {opcode : Opcode}
    {body : List UInt8} {place : Option Nat}
    (denotes : script.Denotes instruction opcode body place) :
    script.JumpAimed index instruction ↔
      ∀ target ∈ place, opcode.family.flow.isJump = true →
        opcode.family.flow.isBackward = decide (target ≤ index) := by
  have flow := (Opcode.family_mem denotes.member).2.1
  rw [flow, Flow.isJump_resize, Flow.isBackward_resize]
  constructor
  · intro aimed target found jumps
    obtain rfl := Option.mem_def.mp found
    obtain ⟨label, named, position⟩ := denotes.exists_label
    rw [Bool.eq_iff_iff, decide_eq_true_iff]
    exact aimed opcode label target denotes.known jumps named position
  · intro aimed row label target known jumps named position
    obtain rfl := Option.some.inj (denotes.known.symm.trans known)
    have side := aimed target (denotes.place_eq named position) jumps
    rw [side, decide_eq_true_iff]

/-- **Nothing is wrong with an instruction under given settings** if nothing is under the default
ones, and jumps may be turned or this instruction is aimed. -/
theorem faults_eq_nil_iff_default {index : Nat} {instruction : Instruction} :
    (Slot.prepare config script.labels script.size index instruction).2 = [] ↔
      (Slot.prepare {} script.labels script.size index instruction).2 = [] ∧
        (config.flipJumps = true ∨ script.JumpAimed index instruction) := by
  constructor
  · intro sound
    obtain ⟨opcode, body, place, denotes, aims⟩ := Slot.denotes_of_prepare sound
    refine ⟨(Slot.prepare_of_denotes denotes fun target found =>
      (Slot.aim_isOk_iff_default.mp (aims target found)).1).1, ?_⟩
    by_cases flips : config.flipJumps = true
    · exact .inl flips
    · refine .inr ((jumpAimed_iff denotes).mpr fun target found => ?_)
      exact (Slot.aim_isOk_iff_default.mp (aims target found)).2.resolve_left flips
  · rintro ⟨sound, allowed⟩
    obtain ⟨opcode, body, place, denotes, aims⟩ := Slot.denotes_of_prepare sound
    refine (Slot.prepare_of_denotes denotes fun target found => ?_).1
    refine Slot.aim_isOk_iff_default.mpr ⟨aims target found, allowed.imp_right fun aimed => ?_⟩
    exact (jumpAimed_iff denotes).mp aimed target found

/-- **Nothing is found before layout under given settings** if nothing is under the default ones,
and jumps may be turned or all of them are aimed. -/
theorem findings_eq_nil_iff_default :
    script.findings config = [] ↔
      script.findings {} = [] ∧ (config.flipJumps = true ∨ script.JumpsAimed) := by
  rw [findings_eq_nil_iff, findings_eq_nil_iff]
  constructor
  · rintro ⟨names, each⟩
    have parts := fun index instruction listed =>
      faults_eq_nil_iff_default.mp (each index instruction listed)
    refine ⟨⟨names, fun index instruction listed => (parts index instruction listed).1⟩, ?_⟩
    by_cases flips : config.flipJumps = true
    · exact .inl flips
    · exact .inr fun index instruction listed =>
        (parts index instruction listed).2.resolve_left flips
  · rintro ⟨⟨names, each⟩, allowed⟩
    refine ⟨names, fun index instruction listed => ?_⟩
    exact faults_eq_nil_iff_default.mpr ⟨each index instruction listed,
      allowed.imp_right fun aimed => aimed index instruction listed⟩

/-- A script that nothing is wrong with is equivalent to itself: all of its labels have a place. -/
theorem equivalent_self_of_findings (nothing : script.findings config = []) :
    script.equivalent script = true := by
  refine equivalent_iff.mpr ⟨rfl, fun index x y found found' => ?_⟩
  obtain rfl := Option.some.inj (found.symm.trans found')
  obtain ⟨opcode, body, place, denotes, _⟩ :=
    Slot.denotes_of_prepare ((findings_eq_nil_iff.mp nothing).2 index x found)
  exact (sameInstruction_iff rfl denotes).mpr ⟨opcode, denotes, rfl⟩

variable {assembly : Assembly}

/-- The passes of an assembled script are allowed by given settings if the limit, where they have
one, is not below them. -/
theorem passes_le_passLimit_iff (built : script.build {} = .ok assembly) :
    assembly.passes ≤ passLimit config script.size ↔
      ∀ limit ∈ config.maxPasses, assembly.passes ≤ limit := by
  have few := passes_le_of_build built
  unfold passLimit
  cases config.maxPasses with
  | none => simpa using few
  | some limit => simp

/-- **A script is built under given settings** if it is built under the default ones, to the same
assembly, and the settings allow for its passes and its jumps. -/
theorem build_eq_ok_iff_default :
    script.build config = .ok assembly ↔
      script.build {} = .ok assembly ∧ (∀ limit ∈ config.maxPasses, assembly.passes ≤ limit) ∧
        (config.flipJumps = true ∨ script.JumpsAimed) := by
  constructor
  · intro built
    obtain ⟨_, _, nothing, _⟩ := build_eq_ok_iff.mp built
    obtain ⟨sound, allowed⟩ := findings_eq_nil_iff_default.mp nothing
    have again : script.build {} = .ok assembly :=
      build_of_equivalent built (equivalent_self_of_findings nothing) sound
        (passes_le_of_build built)
    exact ⟨again, (passes_le_passLimit_iff again).mp (passes_le_passLimit built), allowed⟩
  · rintro ⟨built, within, allowed⟩
    obtain ⟨_, _, sound, _⟩ := build_eq_ok_iff.mp built
    exact build_of_equivalent built (equivalent_self_of_findings sound)
      (findings_eq_nil_iff_default.mpr ⟨sound, allowed⟩)
      ((passes_le_passLimit_iff built).mpr within)

/-- **The settings only restrict what can be assembled.** A script is assembled under given settings
if it is assembled under the default ones, to the same assembly, provided that a limit on the passes
leaves the passes that it took, and that jumps may be turned or are all aimed. -/
theorem assemble_eq_ok_iff_default (script : Script) (config : AssemblyConfig) (assembly : Assembly)
    (origin origin' : Origin) :
    script.assemble origin config = .ok assembly ↔
      script.assemble origin' = .ok assembly ∧
        (∀ limit, config.maxPasses = some limit → assembly.passes ≤ limit) ∧
        (config.flipJumps = true ∨ script.JumpsAimed) := by
  rw [assemble_eq_ok_iff, assemble_eq_ok_iff, build_eq_ok_iff_default]
  rfl

end Script

end SceneScript
