/-
**From decoded instructions to a script with labels.**

Every destination has to be a boundary; its index is the target of the branch. The targets become
labels, one for each, and the branches name them.

* `targetIndex_eq_ok_iff`: the target of a decoded branch is the index at whose place it lands;
* `distinct_concat`: targets are numbered as they are met, so that every target gets one label
  (`nodup_distinct`, `mem_distinct`);
* `denotes_script`: an instruction of the script means what the decoded one holds, with the target
  in place of the number;
* `disassemble_eq_ok_iff`: bytes are disassembled if they are tiled by instructions whose
  destinations are boundaries;
* `denotes_of_lands`: an instruction of a disassembled script means what the bytes hold.
-/

import SceneScript.Proofs.Destinations
import SceneScript.Proofs.Meaning
import SceneScript.Proofs.Tiling

namespace SceneScript

open Layout

/-- A branch gets its label in the place of the last operand. -/
theorem Instruction.retarget?_eq {instruction : Instruction} {opcode : Opcode} {width : BranchWidth}
    {lead : List Operand} {last : Operand} {body : List UInt8}
    (known : instruction.opcode? = some opcode) (branches : opcode.flow.width? = some width)
    (written : Written opcode.leading lead body) (operands : instruction.operands = lead ++ [last])
    (label : Nat) :
    instruction.retarget? label = some { instruction with operands := lead ++ [.label label] } := by
  have place : instruction.branchOperand? = some lead.length := by
    rw [branchOperand?, known, Option.bind_some,
      Opcode.branchOperand?_eq (Opcode.mem_of_ofCode? known), branches, written.length_eq]
    rfl
  simp [retarget?, place, operands]

namespace Disassembly

/-! ### Targets -/

/-- A decoded instruction lands at the place of a target, or has none. -/
def LandsAt (sizes : List Nat) (item : Placed) (target : Option Nat) : Prop :=
  item.destination? = target.map (fun index => (offsetAt sizes index : Int)) ∧
    ∀ index ∈ target, index ≤ sizes.length

/-- A number is found among the boundaries if it is the place of an instruction or the end. -/
theorem boundary_eq_some_iff {placed : List Placed} {bytes : List UInt8}
    (tiling : Tiling 0 placed bytes) {destination : Int} {index : Nat} :
    destination.toNat?.bind ((boundaries placed bytes.length)[·]?) = some index ↔
      destination = offsetAt (placed.map Placed.size) index ∧ index ≤ placed.length := by
  simp only [Option.bind_eq_some_iff, getElem?_boundaries tiling]
  constructor
  · rintro ⟨place, same, inside, rfl⟩
    exact ⟨Int.mem_toNat?.mp same, inside⟩
  · rintro ⟨rfl, inside⟩
    exact ⟨_, Int.mem_toNat?.mpr rfl, inside, rfl⟩

/-- **The target of a decoded branch is the index at whose place it lands.** -/
theorem targetIndex_eq_ok_iff {placed : List Placed} {bytes : List UInt8}
    (tiling : Tiling 0 placed bytes) {item : Placed} {target : Option Nat} :
    targetIndex (boundaries placed bytes.length) item = .ok target ↔
      LandsAt (placed.map Placed.size) item target := by
  unfold targetIndex LandsAt
  rw [List.length_map]
  cases item.destination? with
  | none => cases target <;> simp
  | some destination =>
    have located := fun index : Nat => @boundary_eq_some_iff _ _ tiling destination index
    simp only
    generalize destination.toNat?.bind ((boundaries placed bytes.length)[·]?) = start at located ⊢
    constructor
    · intro same
      cases start with
      | none => cases same
      | some index =>
        cases same
        obtain ⟨rfl, inside⟩ := (located index).mp rfl
        exact ⟨rfl, by simpa using inside⟩
    · rintro ⟨same, inside⟩
      cases target with
      | none => cases same
      | some index => rw [(located index).mpr ⟨Option.some.inj same, inside index rfl⟩]

theorem LandsAt.unique {placed : List Placed} {bytes : List UInt8} (tiling : Tiling 0 placed bytes)
    {item : Placed} {target target' : Option Nat}
    (lands : LandsAt (placed.map Placed.size) item target)
    (lands' : LandsAt (placed.map Placed.size) item target') : target = target' := by
  have first := (targetIndex_eq_ok_iff tiling).mpr lands
  rw [(targetIndex_eq_ok_iff tiling).mpr lands'] at first
  cases first
  rfl

/-! ### Distinct numbers -/

section Step

variable {seen : Std.HashSet Nat} {kept : List Nat} {number : Nat}

theorem keepNew_of_mem (known : number ∈ seen) :
    keepNew (seen, kept) number = (seen, kept) := by
  simp [keepNew, known]

theorem keepNew_of_notMem (fresh : number ∉ seen) :
    keepNew (seen, kept) number = (seen.insert number, number :: kept) := by
  simp [keepNew, fresh]

end Step

/-- What has been seen is what has been kept. -/
theorem mem_seen_iff (numbers : List Nat) (number : Nat) :
    number ∈ (numbers.foldl keepNew (∅, [])).1 ↔ number ∈ (numbers.foldl keepNew (∅, [])).2 := by
  induction numbers using List.reverseRecOn with
  | nil => simp
  | append_singleton numbers last ih =>
    rw [List.foldl_concat]
    generalize numbers.foldl keepNew (∅, []) = state at ih ⊢
    obtain ⟨seen, kept⟩ := state
    by_cases known : last ∈ seen
    · rwa [keepNew_of_mem known]
    · rw [keepNew_of_notMem known, Std.HashSet.mem_insert, List.mem_cons, beq_iff_eq, eq_comm, ih]

/-- **A number that is met for the first time comes behind those before it**, any other is
dropped. -/
theorem distinct_concat (numbers : List Nat) (number : Nat) :
    distinct (numbers ++ [number]) =
      if number ∈ distinct numbers then distinct numbers else distinct numbers ++ [number] := by
  have same := mem_seen_iff numbers number
  rw [distinct, distinct, List.foldl_concat]
  generalize numbers.foldl keepNew (∅, []) = state at same ⊢
  obtain ⟨seen, kept⟩ := state
  by_cases known : number ∈ seen
  · rw [keepNew_of_mem known, if_pos (List.mem_reverse.mpr (same.mp known))]
  · rw [keepNew_of_notMem known, if_neg fun among => known (same.mpr (List.mem_reverse.mp among)),
      List.reverse_cons]

theorem mem_distinct {numbers : List Nat} {number : Nat} :
    number ∈ distinct numbers ↔ number ∈ numbers := by
  induction numbers using List.reverseRecOn with
  | nil => simp [distinct]
  | append_singleton numbers last ih =>
    rw [distinct_concat]
    split <;> grind

theorem nodup_distinct (numbers : List Nat) : (distinct numbers).Nodup := by
  induction numbers using List.reverseRecOn with
  | nil => exact .nil
  | append_singleton numbers last ih =>
    rw [distinct_concat]
    split
    · exact ih
    · next new => exact List.nodup_append.mpr ⟨ih, List.nodup_singleton _, by grind⟩

/-! ### The script -/

section Script

variable {id : UInt8} {placed : List Placed} {targets : List (Option Nat)} {index : Nat}

theorem mem_positions {target : Nat} : target ∈ positions targets ↔ some target ∈ targets := by
  rw [positions, mem_distinct, List.mem_filterMap]
  exact ⟨fun ⟨_, among, same⟩ => same ▸ among, fun among => ⟨_, among, rfl⟩⟩

theorem label?_script (label : Nat) :
    (script id placed targets).label? label =
      (positions targets)[label]?.map fun position => synthesize position label := by
  simp [Script.label?, script]

theorem position?_script (label : Nat) :
    (script id placed targets).position? label = (positions targets)[label]? := by
  rw [Script.position?, label?_script]
  cases (positions targets)[label]? <;> rfl

theorem size_script (lengths : placed.length = targets.length) :
    (script id placed targets).size = placed.length := by
  simp [Script.size, script, lengths]

theorem exists_position {target : Nat} (found : targets[index]? = some (some target)) :
    ∃ label, (positions targets)[label]? = some target ∧
      (Std.HashMap.ofList (positions targets).zipIdx)[target]? = some label := by
  have among : target ∈ positions targets := mem_positions.mpr (List.mem_of_getElem? found)
  obtain ⟨label, listed⟩ := List.mem_iff_getElem?.mp among
  exact ⟨label, listed, (getElem?_ofList_zipIdx (nodup_distinct _)).mpr listed⟩

/-- **An instruction of the script means what the decoded one holds**, with the target in place of
the number. -/
theorem denotes_script {item : Placed} {target : Option Nat} {opcode : Opcode} {body : List UInt8}
    {raw : Option Nat} (lengths : placed.length = targets.length)
    (found : placed[index]? = some item) (found' : targets[index]? = some target)
    (resolved : item.instruction.Resolved opcode body raw)
    (lands : LandsAt (placed.map Placed.size) item target) :
    ∃ instruction, (script id placed targets).instructions[index]? = some instruction ∧
      (script id placed targets).Denotes instruction opcode body target := by
  have destination := lands.1
  rw [Placed.destination?_eq resolved] at destination
  cases target with
  | none =>
    cases resolved with
    | plain known still written =>
      refine ⟨item.instruction, ?_, .plain known still written⟩
      simp [script, List.getElem?_zipWith, found, found']
    | branch => cases destination
  | some target =>
    obtain ⟨label, listed, numbered⟩ := exists_position found'
    cases resolved with
    | plain => cases destination
    | @branch width lead value raw known branches written operands _ _ =>
      refine ⟨{ item.instruction with operands := lead ++ [.label label] }, ?_, ?_⟩
      · have linked := Instruction.retarget?_eq known branches written operands label
        simp only [script, List.getElem?_zipWith, found, found', Option.bind_some]
        rw [numbered, Option.bind_some, linked, Option.getD_some]
      · refine .branch known ?_ written rfl (position?_script label ▸ listed) ?_
        · rw [Flow.hasTarget, branches]
          rfl
        · rw [size_script lengths]
          simpa using lands.2 target rfl

end Script

end Disassembly

open Disassembly

/-- **Bytes are disassembled** if they are tiled by instructions whose destinations are boundaries;
the targets determine the script. -/
theorem Script.disassemble_eq_ok_iff {id : UInt8} {bytes : List UInt8} {decoded : Script} :
    Script.disassemble id bytes = .ok decoded ↔
      ∃ placed targets, Tiling 0 placed bytes ∧
        List.Forall₂ (LandsAt (placed.map Placed.size)) placed targets ∧
        decoded = Disassembly.script id placed targets := by
  unfold Script.disassemble
  simp only [Traversal.bind_eq_ok_iff, decodeAll_eq_ok_iff, Traversal.mapM_eq_ok_iff]
  constructor
  · rintro ⟨placed, tiling, targets, linked, same⟩
    cases same
    exact ⟨placed, targets, tiling, linked.imp fun _ _ => (targetIndex_eq_ok_iff tiling).mp, rfl⟩
  · rintro ⟨placed, targets, tiling, lands, rfl⟩
    exact ⟨placed, tiling, targets, lands.imp fun _ _ => (targetIndex_eq_ok_iff tiling).mpr, rfl⟩

/-- What the bytes are disassembled to, once it is known in which order the targets are met. -/
theorem Script.disassemble_of_positions {id : UInt8} {placed : List Placed} {bytes : List UInt8}
    {targets : List (Option Nat)} {met : List Nat} (tiling : Tiling 0 placed bytes)
    (lands : List.Forall₂ (LandsAt (placed.map Placed.size)) placed targets)
    (order : positions targets = met) :
    Script.disassemble id bytes = .ok {
      id
      instructions := List.zipWith (fun item target =>
        ((target.bind met.idxOf?).bind item.instruction.retarget?).getD item.instruction)
          placed targets
      labels := met.toArray.mapIdx fun id position => synthesize position id } := by
  refine disassemble_eq_ok_iff.mpr ⟨placed, targets, tiling, lands, ?_⟩
  have apart : met.Nodup := order ▸ nodup_distinct _
  have numbers : ∀ target : Nat, (Std.HashMap.ofList met.zipIdx)[target]? = met.idxOf? target := by
    intro target
    ext label
    rw [getElem?_ofList_zipIdx apart, List.idxOf?_eq_some_iff, List.getElem?_eq_some_iff]
    refine exists_congr fun inside => (and_iff_left_of_imp ?_).symm
    rintro rfl earlier before same
    exact before.ne (apart.getElem_inj_iff.mp same)
  simp only [Disassembly.script, order, numbers]

/-- Bytes are disassembled if they are tiled by instructions that land on boundaries. -/
theorem Script.exists_disassemble (id : UInt8) {placed : List Placed} {bytes : List UInt8}
    (tiling : Tiling 0 placed bytes)
    (lands : ∀ item ∈ placed, ∃ target, LandsAt (placed.map Placed.size) item target) :
    ∃ decoded, Script.disassemble id bytes = .ok decoded := by
  have linked : ∃ targets, placed.mapM (targetIndex (boundaries placed bytes.length)) =
      .ok targets := by
    refine Traversal.exists_mapM_ok fun item member => ?_
    obtain ⟨target, landing⟩ := lands item member
    exact ⟨target, (targetIndex_eq_ok_iff tiling).mpr landing⟩
  obtain ⟨targets, result⟩ := linked
  exact ⟨_, disassemble_eq_ok_iff.mpr ⟨placed, targets, tiling,
    (Traversal.mapM_eq_ok_iff.mp result).imp fun _ _ => (targetIndex_eq_ok_iff tiling).mp, rfl⟩⟩

theorem Script.exists_tiling {id : UInt8} {bytes : List UInt8} {decoded : Script}
    (accepted : Script.disassemble id bytes = .ok decoded) : ∃ placed, Tiling 0 placed bytes := by
  obtain ⟨placed, _, tiling, _⟩ := disassemble_eq_ok_iff.mp accepted
  exact ⟨placed, tiling⟩

theorem Script.size_of_disassemble {id : UInt8} {placed : List Placed} {bytes : List UInt8}
    {decoded : Script} (accepted : Script.disassemble id bytes = .ok decoded)
    (tiling : Tiling 0 placed bytes) : decoded.size = placed.length := by
  obtain ⟨placed', targets, tiling', each, rfl⟩ := disassemble_eq_ok_iff.mp accepted
  obtain rfl := tiling.unique tiling'
  exact size_script each.length_eq

/-- **An instruction of a disassembled script means what the bytes hold.** -/
theorem Script.denotes_of_lands {id : UInt8} {placed : List Placed} {bytes : List UInt8}
    {decoded : Script} (accepted : Script.disassemble id bytes = .ok decoded)
    (tiling : Tiling 0 placed bytes) {index : Nat} {item : Placed}
    (found : placed[index]? = some item) {opcode : Opcode} {body : List UInt8} {raw : Option Nat}
    (resolved : item.instruction.Resolved opcode body raw) {target : Option Nat}
    (lands : LandsAt (placed.map Placed.size) item target) :
    ∃ instruction, decoded.instructions[index]? = some instruction ∧
      decoded.Denotes instruction opcode body target := by
  obtain ⟨placed', targets, tiling', each, rfl⟩ := disassemble_eq_ok_iff.mp accepted
  obtain rfl := tiling.unique tiling'
  obtain ⟨lengths, pairs⟩ := Traversal.forall₂_iff_getElem?.mp each
  have inside : index < targets.length := lengths ▸ (List.getElem?_eq_some_iff.mp found).1
  have found' := List.getElem?_eq_getElem inside
  have landing := pairs index item _ found found'
  rw [lands.unique tiling landing]
  exact denotes_script lengths found found' resolved landing

end SceneScript
