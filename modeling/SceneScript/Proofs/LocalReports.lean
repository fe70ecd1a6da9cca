/-
**What is reported of one instruction.**

An unknown code, an operand that does not fit, and a label that is missing or on the wrong side are
faults of one instruction alone. They are reported whatever the rest of the script is: neither other
faults nor a layout that does not settle hide them, and they keep their order.

* `filter_mergeSort`: sorting by a key keeps the order of items with one key;
* `filter_reports`: what is reported of an instruction alone is what `Slot.prepare` finds at it;
* `diagnostics_independent`: it is the same in two scripts that agree on that instruction.
-/

import SceneScript.Proofs.LabelReports

namespace SceneScript

/-- Sorting by a key leaves the items with one key in their order. -/
theorem filter_mergeSort {α : Type} {key : α → Nat} {chosen : α → Bool} {value : Nat}
    (same : ∀ item, chosen item = true → key item = value) (items : List α) :
    (items.mergeSort fun first second => key first ≤ key second).filter chosen =
      items.filter chosen := by
  have ordered : (items.filter chosen).Pairwise fun first second =>
      decide (key first ≤ key second) = true := by
    refine List.pairwise_of_forall_mem_list fun first member second member' => ?_
    rw [same first (List.mem_filter.mp member).2, same second (List.mem_filter.mp member').2]
    exact decide_eq_true (Nat.le_refl value)
  have kept : (items.filter chosen).Sublist
      (items.mergeSort fun first second => key first ≤ key second) := by
    refine List.sublist_mergeSort (fun first second third => ?_) (fun first second => ?_) ordered
      List.filter_sublist
    · simpa using Nat.le_trans
    · simpa using Nat.le_total (key first) (key second)
  have inside := kept.filter chosen
  simp only [List.filter_filter, Bool.and_self] at inside
  exact (inside.eq_of_length ((List.mergeSort_perm items _).filter chosen).length_eq.symm).symm

/-- Whether a finding says what is wrong with the instruction at an index alone: an unknown code, an
operand that does not fit, or a label that is missing or on the wrong side. -/
def Finding.concerns (index : Nat) (finding : Finding) : Bool :=
  finding.index = index ∧ finding.fault.stage = .instructions

namespace Script

/-- What is wrong with the instruction at an index alone. -/
def faultsAt (config : AssemblyConfig) (script : Script) (index : Nat) : List Fault :=
  (script.instructions[index]?.map fun instruction =>
    (Slot.prepare config script.labels script.size index instruction).2).getD []

theorem filter_concerns_of_stage {found : List Finding} {index : Nat}
    (other : ∀ finding ∈ found, finding.fault.stage ≠ .instructions) :
    found.filter (Finding.concerns index) = [] := by
  refine List.filter_eq_nil_iff.mpr fun finding member concerns => other finding member ?_
  exact (of_decide_eq_true concerns).2

theorem filter_concerns_findings (config : AssemblyConfig) (script : Script) (index : Nat) :
    (script.findings config).filter (Finding.concerns index) =
      (script.faultsAt config index).map fun fault => { index := index, fault := fault } := by
  have duplicates : (Assembly.duplicateLabels script.labels).filter (Finding.concerns index) = [] :=
    filter_concerns_of_stage fun finding member => by
      rw [stage_of_mem_duplicateLabels member]
      exact Stage.noConfusion
  have alone : (script.located config).filter (Finding.concerns index) =
      (script.located config).filter (·.index = index) := by
    refine List.filter_congr fun finding member => ?_
    obtain ⟨instruction, _, found⟩ := mem_located_iff.mp member
    simp [Finding.concerns, stage_of_mem_prepare found]
  rw [findings, List.filter_append, duplicates, List.nil_append, alone, filter_index_located]
  rfl

/-- **What is reported of an instruction alone is what is wrong with it**, in the order in which it
is found. -/
theorem filter_reports (config : AssemblyConfig) (script : Script) (index : Nat) :
    (script.reports config).filter (Finding.concerns index) =
      (script.faultsAt config index).map fun fault => { index := index, fault := fault } := by
  obtain ⟨late, stage, order⟩ := exists_late_reports config script
  have unsorted : (script.reports config).filter (Finding.concerns index) =
      (script.findings config ++ late).filter (Finding.concerns index) := by
    rcases order with plain | sorted
    · rw [plain]
    · rw [sorted]
      exact filter_mergeSort (fun finding concerns => (of_decide_eq_true concerns).1) _
  have nothing : late.filter (Finding.concerns index) = [] :=
    filter_concerns_of_stage fun finding member => by
      rcases stage finding member with passes | layout
      · rw [passes]
        exact Stage.noConfusion
      · rw [layout]
        exact Stage.noConfusion
  rw [unsorted, List.filter_append, nothing, List.append_nil, filter_concerns_findings]

theorem filter_diagnostics (script : Script) (origin : Origin) (config : AssemblyConfig)
    (index : Nat) :
    (script.diagnostics origin config).filter (·.concerns index) =
      (script.faultsAt config index).map fun fault =>
        { index := index, fault := fault, origin := origin } := by
  have reports := filter_reports config script index
  rw [diagnostics_eq, List.filter_map]
  show ((script.reports config).filter (Finding.concerns index)).map _ = _
  rw [reports, List.map_map]
  rfl

/-- **One fault never hides another.** Two scripts of one length that have the same labels and the
same instruction at an index get the same diagnostics of that instruction alone, in the same order,
whatever their other instructions are. They say all that is wrong with it. -/
theorem diagnostics_independent {first second : Script} {index : Nat}
    (sizes : first.size = second.size) (labels : first.labels = second.labels)
    (same : first.instructions[index]? = second.instructions[index]?) (origin : Origin)
    (config : AssemblyConfig) :
    (first.diagnostics origin config).filter (·.concerns index) =
        (second.diagnostics origin config).filter (·.concerns index) ∧
      ((first.diagnostics origin config).filter (·.concerns index)).map (·.fault) =
        first.faultsAt config index := by
  have faults : first.faultsAt config index = second.faultsAt config index := by
    rw [faultsAt, faultsAt, sizes, labels, same]
  rw [filter_diagnostics, filter_diagnostics]
  refine ⟨by rw [faults], ?_⟩
  rw [List.map_map]
  exact List.map_id _

/-- A script with a branch whose key is too large and whose label does not exist. -/
def misled : Script where
  id := 0
  instructions := [.nop, { opcode := 0x30, operands := [.scalar 70000, .label 9] }, .ret]
  labels := #[
    { id := 0, name := "end", position := some 3 }, { id := 1, name := "end", position := some 1 }]

/-- The same branch among other faults: a jump that cannot stay short over a payload that is too
long. -/
def misledFurther : Script where
  id := 0
  instructions := [.jump 0, { opcode := 0x30, operands := [.scalar 70000, .label 9] },
    { opcode := 0x1C, operands := [.scalar 0, .bytes (List.replicate 300 0)] }]
  labels := misled.labels

theorem diagnostics_independent_misled :
    let config : AssemblyConfig := { maxPasses := some 1 }
    (Layout.settle 1 0 (misled.slots config)).isSome = true ∧
      Layout.settle 1 0 (misledFurther.slots config) = none ∧
      (misled.diagnostics { script := 0 } config).filter (·.concerns 1) =
        (misledFurther.diagnostics { script := 0 } config).filter (·.concerns 1) ∧
      ((misled.diagnostics { script := 0 } config).filter (·.concerns 1)).map (·.fault) =
        [.invalidOperand 0 "value 70000 does not fit a UInt16 operand", .undefinedLabel "#9"] := by
  intro config
  have sizes : misled.size = misledFurther.size := rfl
  have labels : misled.labels = misledFurther.labels := rfl
  have same : misled.instructions[1]? = misledFurther.instructions[1]? := rfl
  obtain ⟨agree, faults⟩ := diagnostics_independent sizes labels same { script := 0 } config
  refine ⟨by decide +kernel, by decide +kernel, agree, faults.trans ?_⟩
  decide +kernel

end Script

end SceneScript
