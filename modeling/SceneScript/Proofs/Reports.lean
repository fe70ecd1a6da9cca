/-
**What an assembly reports.**

The report of a failed assembly is what its steps found. Whether the layout settles or not, and
whatever else is wrong with it, all that was found before layout is in the report, and nothing that
is found later looks like it.

* `exists_late_reports`, `perm_reports`: the report is what is found before layout, and what the
  layout is blamed for;
* `count_duplicateLabel_reports`: a name is reported once for each label that has it and a position,
  except for the first;
* `count_undefinedLabel_prepare`, `count_undefinedLabel_reports`: a label without a position is
  reported once at each branch that names it.
-/

import Mathlib.Data.List.Count
import SceneScript.Proofs.Reassembly

namespace SceneScript

open Layout

/-- The name of the label to which an instruction branches, if it has no position in its script. -/
def Slot.missingName? (labels : Array Label) (size : Nat) (instruction : Instruction) :
    Option String :=
  instruction.target?.bind fun label =>
    match (labels[label]?.bind Label.position).filter (· ≤ size) with
    | none => some (labelName labels label)
    | some _ => none

theorem Slot.missingName?_of_target {labels : Array Label} {size id : Nat} {label : Label}
    {instruction : Instruction} (targeted : instruction.target? = some id)
    (found : labels[id]? = some label) (inside : ∀ position ∈ label.position, position ≤ size) :
    missingName? labels size instruction =
      if label.position = none then some label.name else none := by
  rw [missingName?, targeted, Option.bind_some, found, Option.bind_some]
  cases placed : label.position with
  | none =>
    show some (labelName labels id) = some label.name
    rw [labelName, found]
  | some position =>
    have kept : (some position).filter (· ≤ size) = some position :=
      Option.filter_eq_some_iff.mpr ⟨rfl, decide_eq_true (inside position placed)⟩
    rw [kept, if_neg nofun]

/-- **A missing label is found once**, at the branch that names it. -/
theorem Slot.count_undefinedLabel_prepare (config : AssemblyConfig) (labels : Array Label)
    (size index : Nat) (instruction : Instruction) (name : String) :
    (prepare config labels size index instruction).2.count (.undefinedLabel name) =
      (missingName? labels size instruction).toList.count name := by
  cases known : instruction.opcode? with
  | none =>
    have targetless : instruction.target? = none := by
      rw [Instruction.target?, Instruction.branchOperand?, known]
      rfl
    rw [prepare_of_unknown known, missingName?, targetless]
    rfl
  | some opcode =>
    have operands : (operandFaults opcode.family instruction.operands).count
        (.undefinedLabel name) = 0 := by
      refine List.count_eq_zero.mpr fun member => ?_
      obtain ⟨operand, problem, other⟩ := invalidOperand_of_mem member
      cases other
    rw [prepare_of_known known, List.count_append, operands, Nat.zero_add, missingName?,
      destinationFaults]
    cases instruction.target? with
    | none => rfl
    | some label =>
      simp only [Option.bind_some]
      cases (labels[label]?.bind Label.position).filter (· ≤ size) with
      | none => simp [List.count_singleton]
      | some place =>
        simp only
        cases aim config opcode.family (place ≤ index) with
        | ok aimed => rfl
        | error reason => rfl

namespace Script

variable {config : AssemblyConfig} {script : Script}

/-- What an assembly reports, which is nothing if it succeeds. -/
def reports (config : AssemblyConfig) (script : Script) : List Finding :=
  match script.build config with
  | .ok _ => []
  | .error found => found

/-- **The report is what is found before layout, and then what the layout is blamed for**, in the
order of the instructions unless the layout did not settle. -/
theorem exists_late_reports (config : AssemblyConfig) (script : Script) :
    ∃ late : List Finding,
      (∀ finding ∈ late, finding.fault.stage = .passes ∨ finding.fault.stage = .layout) ∧
      (script.reports config = script.findings config ++ late ∨
        script.reports config = (script.findings config ++ late).mergeSort
          fun first second => first.index ≤ second.index) := by
  unfold reports
  rw [build_eq]
  cases settled : settle (passLimit config script.size) 0 (script.slots config) with
  | none =>
    refine ⟨_, fun finding member => .inl ?_, .inl rfl⟩
    rw [List.mem_singleton.mp member]
    rfl
  | some layout =>
    refine ⟨Assembly.unreached script.labels layout ++ Assembly.oversize layout, ?_, .inr ?_⟩
    · intro finding member
      rcases List.mem_append.mp member with unreached | oversize
      · exact .inr (stage_of_mem_unreached unreached)
      · exact .inr (stage_of_mem_oversize oversize)
    · rw [← List.append_assoc]
      by_cases nothing : (script.findings config ++ Assembly.unreached script.labels layout ++
          Assembly.oversize layout).isEmpty
      · -- Then the layout can be written, so nothing is reported either.
        obtain ⟨⟨early, reached⟩, small⟩ : (script.findings config = [] ∧
            Assembly.unreached script.labels layout = []) ∧ Assembly.oversize layout = [] := by
          simpa only [List.isEmpty_iff, List.append_eq_nil_iff] using nothing
        obtain ⟨offsets, checked⟩ := checked_of_settle early settled reached small
        obtain ⟨assembly, written⟩ := checked.exists_emit offsets
        simp [early, reached, small, written]
      · simp only [nothing, Bool.false_eq_true, if_false]

theorem perm_reports (config : AssemblyConfig) (script : Script) :
    ∃ late : List Finding, (script.reports config).Perm (script.findings config ++ late) ∧
      ∀ finding ∈ late, finding.fault.stage = .passes ∨ finding.fault.stage = .layout := by
  obtain ⟨late, stage, plain | sorted⟩ := exists_late_reports config script
  · exact ⟨late, plain ▸ .refl _, stage⟩
  · exact ⟨late, sorted ▸ List.mergeSort_perm _ _, stage⟩

/-! ### Duplicates -/

theorem count_duplicateLabel_reports (config : AssemblyConfig) (script : Script) (name : String) :
    ((script.reports config).map Finding.fault).count (.duplicateLabel name) =
      script.placedNames.count name - 1 := by
  obtain ⟨late, perm, stage⟩ := perm_reports config script
  have inLate : (late.map Finding.fault).count (.duplicateLabel name) = 0 := by
    refine List.count_eq_zero.mpr fun member => ?_
    obtain ⟨finding, among, same⟩ := List.mem_map.mp member
    have own := stage finding among
    rw [same] at own
    exact own.elim Stage.noConfusion Stage.noConfusion
  have inLocated :
      ((script.located config).map Finding.fault).count (.duplicateLabel name) = 0 := by
    refine List.count_eq_zero.mpr fun member => ?_
    obtain ⟨finding, among, same⟩ := List.mem_map.mp member
    obtain ⟨instruction, _, alone⟩ := mem_located_iff.mp among
    rw [same] at alone
    exact Stage.noConfusion (stage_of_mem_prepare alone)
  rw [(perm.map Finding.fault).count_eq, findings, List.map_append, List.map_append,
    List.count_append, List.count_append, inLate, inLocated, count_duplicateLabels]
  rfl

/-! ### Missing labels -/

/-- What is found at one index is what is wrong with the instruction there. -/
theorem filter_index_zipIdx (prepared : List (Slot × List Fault)) (start index : Nat) :
    ((prepared.zipIdx start).flatMap fun item =>
        item.1.2.map fun fault => ({ index := item.2, fault := fault } : Finding)).filter
          (·.index = index) =
      if start ≤ index then
        ((prepared[index - start]?.map Prod.snd).getD []).map fun fault =>
          { index := index, fault := fault }
      else [] := by
  induction prepared generalizing start with
  | nil => simp
  | cons first rest ih =>
    rw [List.zipIdx_cons, List.flatMap_cons, List.filter_append, ih]
    by_cases own : start = index
    · subst own
      simp [List.filter_map, Function.comp_def]
    · rw [List.filter_eq_nil_iff.mpr fun finding member => ?_, List.nil_append]
      · by_cases later : start + 1 ≤ index
        · rw [if_pos later, if_pos (Nat.le_of_succ_le later),
            show index - start = index - (start + 1) + 1 by omega, List.getElem?_cons_succ]
        · rw [if_neg later, if_neg fun before => later (Nat.lt_of_le_of_ne before own)]
      · obtain ⟨fault, _, rfl⟩ := List.mem_map.mp member
        simpa using own

theorem filter_index_located (config : AssemblyConfig) (script : Script) (index : Nat) :
    (script.located config).filter (·.index = index) =
      ((script.instructions[index]?.map fun instruction =>
        (Slot.prepare config script.labels script.size index instruction).2).getD []).map
          fun fault => { index := index, fault := fault } := by
  rw [located, Assembly.located, filter_index_zipIdx, if_pos (Nat.zero_le index), Nat.sub_zero,
    getElem?_prepared, Option.map_map]
  rfl

theorem count_undefinedLabel_located (config : AssemblyConfig) (script : Script) (index : Nat)
    (name : String) :
    (script.located config).count { index := index, fault := .undefinedLabel name } =
      (script.instructions[index]?.bind
        (Slot.missingName? script.labels script.size)).toList.count name := by
  have distinct : Function.Injective fun fault : Fault => ({ index, fault } : Finding) :=
    fun _ _ same => congrArg Finding.fault same
  rw [← List.count_filter (p := fun finding => finding.index = index) (by simp),
    filter_index_located, List.count_map_of_injective _ _ distinct]
  cases script.instructions[index]? with
  | none => rfl
  | some instruction =>
    exact Slot.count_undefinedLabel_prepare config script.labels script.size index instruction name

/-- **A label without a position is reported once at each branch that names it.** -/
theorem count_undefinedLabel_reports (config : AssemblyConfig) (script : Script) (index : Nat)
    (name : String) :
    (script.reports config).count { index := index, fault := .undefinedLabel name } =
      (script.instructions[index]?.bind
        (Slot.missingName? script.labels script.size)).toList.count name := by
  obtain ⟨late, perm, stage⟩ := perm_reports config script
  have inLate : late.count { index := index, fault := .undefinedLabel name } = 0 :=
    List.count_eq_zero.mpr fun member =>
      (stage _ member).elim Stage.noConfusion Stage.noConfusion
  have inDuplicates : (Assembly.duplicateLabels script.labels).count
      { index := index, fault := .undefinedLabel name } = 0 :=
    List.count_eq_zero.mpr fun member => Stage.noConfusion (stage_of_mem_duplicateLabels member)
  rw [perm.count_eq, findings, List.count_append, List.count_append, inLate, inDuplicates,
    count_undefinedLabel_located, Nat.zero_add, Nat.add_zero]

end Script

end SceneScript
