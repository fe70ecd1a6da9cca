/-
**A recorded length is that of the script as it stands.**

The length of the last build was recorded under the settings of that time, and later operations may
change the settings, the numbers of scripts, and other scripts. It stays right, because an edit
forgets it, and because the settings do not change what an assembly is.

* `Script.toNat_length16`: two bytes hold the length of an assembly;
* `ScriptEntry.Recorded.change`: what an operation can do to an entry keeps its record right;
* `Scene.run_recorded`: after every sequence of operations, each record is the length of the
  assembly that the default settings give.
-/

import SceneScript.Proofs.Operations
import SceneScript.Proofs.Settings

namespace SceneScript

namespace Script

variable {script : Script} {config : AssemblyConfig} {assembly : Assembly}

/-- **Two bytes hold the length of an assembly.** -/
theorem toNat_length16 (built : script.build config = .ok assembly) :
    assembly.length16.toNat = assembly.bytes.length := by
  have small := length_le_of_build built
  exact UInt16.toNat_ofNat_of_lt (Nat.lt_succ_of_le small)

end Script

/-- The length that is recorded in an entry, if there is one, is that of the assembly that the
default settings give. -/
def ScriptEntry.Recorded (entry : ScriptEntry) : Prop :=
  ∀ length, entry.builtLength = some length →
    ∃ assembly, (∀ origin, entry.script.assemble origin = .ok assembly) ∧
      assembly.bytes.length = length.toNat

namespace ScriptEntry

variable {edits : Script → Script → Prop} {entry changed : ScriptEntry}

theorem recorded_of_none (unbuilt : entry.builtLength = none) : entry.Recorded := by
  intro length found
  rw [unbuilt] at found
  cases found

/-- What the build of a script records is right, whatever the settings are. -/
theorem recorded_of_assemble (entry : ScriptEntry) (origin : Origin) (config : AssemblyConfig) :
    Recorded { entry with
      builtLength := (entry.script.assemble origin config).toOption.map Assembly.length16 } := by
  intro length found
  cases assembled : entry.script.assemble origin config with
  | error diagnostics =>
    rw [assembled] at found
    cases found
  | ok assembly =>
    rw [assembled] at found
    cases found
    have built := Script.assemble_eq_ok_iff.mp assembled
    obtain ⟨unrestricted, _⟩ := Script.build_eq_ok_iff_default.mp built
    exact ⟨assembly, fun _ => Script.assemble_eq_ok_iff.mpr unrestricted,
      (Script.toNat_length16 built).symm⟩

/-- **What an operation can do to an entry keeps its record right.** -/
theorem Recorded.change (recorded : entry.Recorded) (change : entry.Change edits changed) :
    changed.Recorded := by
  cases change with
  | arranged priority invocation => exact recorded
  | edited _ => exact recorded_of_none rfl
  | built origin config => exact entry.recorded_of_assemble origin config

end ScriptEntry

/-- The records of a group are right. -/
def Group.Recorded (group : Group) : Prop := ∀ entry ∈ group.entries, entry.Recorded

namespace Group.Recorded

variable {edits : Script → Script → Prop} {group changed : Group}

theorem change (recorded : group.Recorded) (change : group.Change edits changed) :
    changed.Recorded := by
  intro entry member
  cases change with
  | added unbuilt _ _ =>
    rcases List.mem_append.mp member with old | new
    · exact recorded entry old
    · rw [List.mem_singleton.mp new]
      exact ScriptEntry.recorded_of_none unbuilt
  | removed place => exact recorded entry ((List.eraseIdx_sublist _ place).subset member)
  | updated listed step =>
    rcases List.mem_or_eq_of_mem_set member with old | rfl
    · exact recorded entry old
    · exact (recorded _ (List.mem_of_getElem? listed)).change step

theorem apply (recorded : group.Recorded) {operation : Operation}
    (meets : operation.Meets edits) : (group.apply operation).2.Recorded :=
  (group.changes_apply meets).keeps Group.Recorded (fun change before => before.change change)
    recorded

end Group.Recorded

namespace Scene

/-- **A recorded length is always right.** After every sequence of operations on a new scene, with
any edits of scripts, but with groups added that have no scripts yet, the length that is recorded
for a script is that of the assembly that the default settings give for it. -/
theorem run_recorded (info : SceneInfo) {operations : List Operation}
    (fresh : ∀ operation ∈ operations, ∀ group, operation = .addGroup group → group.entries = []) :
    ∀ group ∈ (Scene.run { info } operations).groups, ∀ entry ∈ group.entries,
      ∀ length, entry.builtLength = some length →
        ∃ assembly, (∀ origin, entry.script.assemble origin = .ok assembly) ∧
          assembly.bytes.length = length.toNat := by
  have meet : ∀ operation ∈ operations,
      operation.Meets (fun group => group.entries = []) fun _ _ => True := by
    intro operation member
    cases operation with
    | addGroup group => exact fresh _ member group rfl
    | within _ operation => cases operation <;> simp [Operation.Meets, Group.Operation.Meets]
    | _ => trivial
  refine run_keeps (fun scene => ∀ group ∈ scene.groups, group.Recorded) ?_ meet ?_
  · intro scene operation meets before
    refine (scene.change_apply meets).forall_groups (fun group empty => ?_)
      (fun group _ meets recorded => recorded.apply meets) before
    intro entry member
    rw [empty] at member
    cases member
  · intro group member
    cases member

/-- A scene with one script in its only group. -/
def yard (config : AssemblyConfig) (builtLength : Option UInt16) : Scene where
  info := { id := 1, name := "yard" }
  config := config
  groups := [
    { id := 0, name := "dir", entries := [
      { script := Script.hop, priority := .highest, invocation := .asyncWait, builtLength }] }]

/-- Five bytes are recorded for that script, if one pass is enough and jumps may be turned. -/
theorem finalize_yard :
    ((yard { maxPasses := some 1 } none).apply (.finalize 0 0)).2 =
      yard { maxPasses := some 1 } (some 5) := by
  have limited : Script.hop.build { maxPasses := some 1 } = .ok _ :=
    Script.build_eq_ok_iff_default.mpr ⟨Script.build_hop, by decide, .inl rfl⟩
  show ((yard { maxPasses := some 1 } none).finalize 0 0).2 = _
  rw [finalize_of_found rfl, Group.finalize_of_found rfl rfl rfl]
  simp only [yard, Script.assemble_eq_ok_iff.mpr limited]
  rfl

/-- A script is built under a limit of one pass; then jumps may no longer be turned, and the build
of a script that is not there fails. -/
def rebuilds : List Operation :=
  [.addGroup { id := 0, name := "dir" }, .within 0 (.addScript Script.hop .highest .asyncWait),
    .configure { maxPasses := some 1 }, .finalize 0 0, .configure { flipJumps := false },
    .finalize 0 9]

theorem run_rebuilds :
    Scene.run { info := { id := 1, name := "yard" } } rebuilds =
      yard { flipJumps := false } (some 5) := by
  have before : Scene.run { info := { id := 1, name := "yard" } } (rebuilds.take 3) =
      yard { maxPasses := some 1 } none := rfl
  show ((Scene.run { info := { id := 1, name := "yard" } } (rebuilds.take 3)).apply
    (.finalize 0 0)).2.run (rebuilds.drop 4) = _
  rw [before, finalize_yard]
  rfl

/-- The length is recorded, and it is that of the script although its jumps may not be turned any
more. -/
theorem run_recorded_rebuilds :
    ∃ group ∈ (Scene.run { info := { id := 1, name := "yard" } } rebuilds).groups,
      ∃ entry ∈ group.entries, entry.builtLength = some 5 ∧
        ∃ assembly, (∀ origin, entry.script.assemble origin = .ok assembly) ∧
          assembly.bytes.length = 5 := by
  have fresh : ∀ operation ∈ rebuilds, ∀ group, operation = .addGroup group →
      group.entries = [] := by
    intro operation member group same
    subst same
    simp only [rebuilds, List.mem_cons, List.not_mem_nil, or_false, reduceCtorEq,
      Operation.addGroup.injEq] at member
    rw [member]
  have recorded := run_recorded { id := 1, name := "yard" } fresh
  rw [run_rebuilds] at recorded ⊢
  refine ⟨_, List.mem_singleton_self _, _, List.mem_singleton_self _, rfl, ?_⟩
  exact recorded _ (List.mem_singleton_self _) _ (List.mem_singleton_self _) 5 rfl

end Scene

end SceneScript
