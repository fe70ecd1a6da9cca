/-
**What assembly finds, step by step.**

`Script.build` prepares the slots (`Script.slots`) and collects what is wrong before layout
(`Script.findings`), lets the slots settle, checks the layout and writes it.

* `build_eq_ok_iff`: a script is built if its slots settle, no step finds anything, and the layout
  can be written;
* `count_duplicateLabels`: how often a name is found at the labels;
* `findings_eq_nil_iff`: nothing is found before layout if the labels that have a position have
  different names and nothing is wrong with any instruction alone;
* `unreached_eq_nil_iff`, `oversize_eq_nil_iff`: nothing is found after layout if all branches reach
  their labels and the script is not too long;
* `stage_of_mem_duplicateLabels`, `stage_of_mem_prepare`, `stage_of_mem_unreached`: every step finds
  faults of its own kind (`Fault.stage`);
* `isFatal_of_mem_findings`, `isFatal_of_build`: the only step that reports a layout that did not
  settle is the one that lets it settle.
-/

import SceneScript.Assembly
import SceneScript.Proofs.Preparation
import SceneScript.Proofs.Traversal

namespace SceneScript

/-- The steps of assembly that find faults. -/
inductive Stage where
  | labels
  | instructions
  | passes
  | layout
deriving DecidableEq

/-- The step that finds a fault. -/
def Fault.stage : Fault → Stage
  | duplicateLabel _ => .labels
  | undefinedLabel _ | invalidOperand _ _ | unknownOpcode _ => .instructions
  | unreachableLabel _ .backwardReference | unreachableLabel _ .forwardReference => .instructions
  | didNotSettle _ => .passes
  | unreachableLabel _ .needsLongForm | scriptTooLarge _ => .layout

namespace Script

/-- The slots of a script before layout. -/
def slots (config : AssemblyConfig) (script : Script) : List Slot :=
  (script.prepared config).map Prod.fst

/-- What is wrong with each instruction alone, with the index of the instruction. -/
def located (config : AssemblyConfig) (script : Script) : List Finding :=
  Assembly.located (script.prepared config)

/-- What is found before layout. -/
def findings (config : AssemblyConfig) (script : Script) : List Finding :=
  Assembly.duplicateLabels script.labels ++ script.located config

/-- The names of the labels that have a position. -/
def placedNames (script : Script) : List String :=
  (script.labels.toList.filter (·.position.isSome)).map Label.name

variable {config : AssemblyConfig} {script : Script}

theorem getElem?_prepared (config : AssemblyConfig) (script : Script) (index : Nat) :
    (script.prepared config)[index]? = script.instructions[index]?.map
      (Slot.prepare config script.labels script.size index) :=
  List.getElem?_mapIdx

@[simp] theorem length_slots (config : AssemblyConfig) (script : Script) :
    (script.slots config).length = script.size := by
  simp [slots, prepared, size]

theorem getElem?_slots (config : AssemblyConfig) (script : Script) (index : Nat) :
    (script.slots config)[index]? = script.instructions[index]?.map fun instruction =>
      (Slot.prepare config script.labels script.size index instruction).1 := by
  rw [slots, List.getElem?_map, getElem?_prepared, Option.map_map]
  rfl

theorem sound_slots (config : AssemblyConfig) (script : Script) :
    Layout.Sound (script.slots config) := by
  intro index slot found
  rw [getElem?_slots] at found
  obtain ⟨instruction, _, rfl⟩ := Option.map_eq_some_iff.mp found
  rw [length_slots]
  exact Slot.sound_prepare config script.labels script.size index instruction

/-! ### Labels -/

open Assembly (noteLabel)

theorem duplicateLabels_eq (labels : Array Label) :
    Assembly.duplicateLabels labels = (labels.toList.foldl noteLabel (∅, [])).2.reverse := by
  rw [Assembly.duplicateLabels, Array.foldl_toList]

section

variable {label : Label} {seen : Std.HashSet String} {found : List Finding} {index : Nat}

theorem noteLabel_of_unplaced (unplaced : label.position = none) :
    noteLabel (seen, found) label = (seen, found) := by
  simp [noteLabel, unplaced]

theorem noteLabel_of_mem (placed : label.position = some index) (known : label.name ∈ seen) :
    noteLabel (seen, found) label =
      (seen, { index, fault := .duplicateLabel label.name } :: found) := by
  simp [noteLabel, placed, known]

theorem noteLabel_of_not_mem (placed : label.position = some index) (fresh : label.name ∉ seen) :
    noteLabel (seen, found) label = (seen.insert label.name, found) := by
  simp [noteLabel, placed, fresh]

end

theorem count_foldl_noteLabel (labels : List Label) (seen : Std.HashSet String)
    (found : List Finding) (name : String) :
    ((labels.foldl noteLabel (seen, found)).2.map Finding.fault).count (.duplicateLabel name) =
      (found.map Finding.fault).count (.duplicateLabel name) +
        (((labels.filter (·.position.isSome)).map Label.name).count name -
          if name ∈ seen then 0 else 1) := by
  induction labels generalizing seen found with
  | nil => simp
  | cons label labels ih =>
    rw [List.foldl_cons]
    cases placed : label.position with
    | none =>
      rw [noteLabel_of_unplaced placed, ih]
      simp [placed]
    | some index =>
      by_cases known : label.name ∈ seen
      · rw [noteLabel_of_mem placed known, ih]
        by_cases own : label.name = name
        · subst own
          simp only [List.map_cons, List.count_cons_self, known, if_true, Nat.sub_zero, placed,
            Option.isSome_some, List.filter_cons_of_pos]
          omega
        · simp [placed, own]
      · rw [noteLabel_of_not_mem placed known, ih]
        by_cases own : label.name = name
        · subst own
          simp [placed, known]
        · simp [placed, own]

/-- **A name is found once for each label that has it and a position, except for the first.** -/
theorem count_duplicateLabels (script : Script) (name : String) :
    ((Assembly.duplicateLabels script.labels).map Finding.fault).count (.duplicateLabel name) =
      script.placedNames.count name - 1 := by
  rw [duplicateLabels_eq, List.map_reverse, List.count_reverse, count_foldl_noteLabel]
  simp [placedNames]

theorem stage_of_mem_duplicateLabels {labels : Array Label} {finding : Finding}
    (member : finding ∈ Assembly.duplicateLabels labels) : finding.fault.stage = .labels := by
  have run : ∀ (labels : List Label) (seen : Std.HashSet String) (found : List Finding),
      (∀ finding ∈ found, finding.fault.stage = .labels) →
      ∀ finding ∈ (labels.foldl noteLabel (seen, found)).2, finding.fault.stage = .labels := by
    intro labels
    induction labels with
    | nil => exact fun _ _ early => early
    | cons label labels ih =>
      intro seen found early
      rw [List.foldl_cons]
      refine ih _ _ ?_
      split
      · exact early
      · split
        · intro finding among
          rcases List.mem_cons.mp among with rfl | later
          · rfl
          · exact early finding later
        · exact early
  rw [duplicateLabels_eq, List.mem_reverse] at member
  exact run labels.toList ∅ [] (fun _ impossible => absurd impossible List.not_mem_nil) finding
    member

/-- **No label is found twice if the labels that have a position have different names.** -/
theorem duplicateLabels_eq_nil_iff (script : Script) :
    Assembly.duplicateLabels script.labels = [] ↔ script.placedNames.Nodup := by
  rw [List.nodup_iff_count_le_one]
  constructor
  · intro nothing name
    have none := count_duplicateLabels script name
    rw [nothing, List.map_nil, List.count_nil] at none
    omega
  · intro once
    refine List.eq_nil_iff_forall_not_mem.mpr fun finding member => ?_
    have stage := stage_of_mem_duplicateLabels member
    cases fault : finding.fault with
    | duplicateLabel name =>
      have none := count_duplicateLabels script name
      rw [Nat.sub_eq_zero_of_le (once name), List.count_eq_zero, ← fault] at none
      exact none (List.mem_map_of_mem member)
    | unreachableLabel name reason =>
      rw [fault] at stage
      cases reason <;> cases stage
    | _ =>
      rw [fault] at stage
      cases stage

/-! ### Before layout -/

theorem mem_located_iff {finding : Finding} :
    finding ∈ script.located config ↔
      ∃ instruction, script.instructions[finding.index]? = some instruction ∧
        finding.fault ∈
          (Slot.prepare config script.labels script.size finding.index instruction).2 := by
  rw [located, Assembly.located, List.mem_flatMap]
  constructor
  · rintro ⟨⟨⟨slot, faults⟩, index⟩, member, among⟩
    obtain ⟨fault, listed, rfl⟩ := List.mem_map.mp among
    rw [List.mem_zipIdx_iff_getElem?, getElem?_prepared] at member
    obtain ⟨instruction, found, same⟩ := Option.map_eq_some_iff.mp member
    exact ⟨instruction, found, by rw [same]; exact listed⟩
  · rintro ⟨instruction, found, listed⟩
    refine ⟨(Slot.prepare config script.labels script.size finding.index instruction,
      finding.index), ?_, List.mem_map.mpr ⟨finding.fault, listed, rfl⟩⟩
    rw [List.mem_zipIdx_iff_getElem?, getElem?_prepared, found]
    rfl

theorem mem_findings_iff {finding : Finding} :
    finding ∈ script.findings config ↔
      finding ∈ Assembly.duplicateLabels script.labels ∨
        ∃ instruction, script.instructions[finding.index]? = some instruction ∧
          finding.fault ∈
            (Slot.prepare config script.labels script.size finding.index instruction).2 := by
  rw [findings, List.mem_append, mem_located_iff]

/-- **Nothing is found before layout** if the labels that have a position have different names and
nothing is wrong with any instruction alone. -/
theorem findings_eq_nil_iff :
    script.findings config = [] ↔
      script.placedNames.Nodup ∧
        ∀ (index : Nat) (instruction : Instruction),
          script.instructions[index]? = some instruction →
          (Slot.prepare config script.labels script.size index instruction).2 = [] := by
  rw [List.eq_nil_iff_forall_not_mem, ← duplicateLabels_eq_nil_iff]
  simp only [mem_findings_iff, not_or, not_exists, not_and]
  constructor
  · intro nothing
    refine ⟨List.eq_nil_iff_forall_not_mem.mpr fun finding => (nothing finding).1, ?_⟩
    intro index instruction found
    refine List.eq_nil_iff_forall_not_mem.mpr fun fault => ?_
    exact (nothing { index := index, fault := fault }).2 instruction found
  · rintro ⟨distinct, sound⟩ finding
    refine ⟨by rw [distinct]; exact List.not_mem_nil, fun instruction found => ?_⟩
    rw [sound finding.index instruction found]
    exact List.not_mem_nil

/-! ### After layout -/

/-- **All branches reach their labels** if none is found that does not. -/
theorem unreached_eq_nil_iff {labels : Array Label} {layout : Layout} :
    Assembly.unreached labels layout = [] ↔
      ∀ (index : Nat) (slot : Slot), layout.slots[index]? = some slot →
        slot.outOfReach layout.offsets index = false := by
  unfold Assembly.unreached
  rw [List.filterMap_eq_nil_iff]
  constructor
  · intro nothing index slot found
    have own := nothing (slot, index) (List.mem_zipIdx_iff_getElem?.mpr found)
    cases targeted : slot.target with
    | none => cases chosen : slot.opcode <;> simp [Slot.outOfReach, targeted, chosen]
    | some target => simpa [targeted] using own
  · rintro each ⟨slot, index⟩ among
    have reached := each index slot (List.mem_zipIdx_iff_getElem?.mp among)
    cases targeted : slot.target <;> simp [targeted, reached]

theorem oversize_eq_nil_iff {layout : Layout} :
    Assembly.oversize layout = [] ↔ layout.total ≤ maxScriptLength := by
  unfold Assembly.oversize
  split <;> simp_all

/-! ### The whole build -/

open Assembly in
theorem build_eq (config : AssemblyConfig) (script : Script) :
    script.build config =
      match Layout.settle (Layout.passLimit config script.size) 0 (script.slots config) with
      | none =>
        .error (script.findings config ++
          [{ index := script.size - 1
             fault := .didNotSettle (Layout.passLimit config script.size) }])
      | some layout =>
        let found := script.findings config ++ unreached script.labels layout ++ oversize layout
        if found.isEmpty then
          match emit layout script.instructions with
          | .ok assembly => .ok assembly
          | .error finding => .error [finding]
        else .error (found.mergeSort fun first second => first.index ≤ second.index) :=
  rfl

/-- **A script is built** if its slots settle, no step finds anything, and the layout can be
written. -/
theorem build_eq_ok_iff {assembly : Assembly} :
    script.build config = .ok assembly ↔
      ∃ layout, Layout.settle (Layout.passLimit config script.size) 0 (script.slots config) =
          some layout ∧
        script.findings config = [] ∧ Assembly.unreached script.labels layout = [] ∧
        Assembly.oversize layout = [] ∧
        Assembly.emit layout script.instructions = .ok assembly := by
  rw [build_eq]
  cases settled :
      Layout.settle (Layout.passLimit config script.size) 0 (script.slots config) with
  | none => simp
  | some layout =>
    simp only [List.isEmpty_iff, List.append_eq_nil_iff, Option.some.injEq, exists_eq_left']
    split
    · next nothing =>
      obtain ⟨⟨early, reached⟩, small⟩ := nothing
      cases Assembly.emit layout script.instructions with
      | ok written => simp [early, reached, small]
      | error finding => simp
    · next something =>
      constructor
      · intro impossible
        cases impossible
      · rintro ⟨early, reached, small, _⟩
        exact absurd ⟨⟨early, reached⟩, small⟩ something

/-- A script is built if its steps evaluate to an assembly, with the names of its labels compared
one by one. -/
theorem build_of_eval {assembly : Assembly} (names : script.placedNames.Nodup)
    (faultless : ∀ slot ∈ script.prepared config, slot.2 = [])
    (laid : ∃ layout ∈ Layout.settle (Layout.passLimit config script.size) 0 (script.slots config),
      Assembly.unreached script.labels layout = [] ∧ Assembly.oversize layout = [] ∧
        (Assembly.emit layout script.instructions).toOption = some assembly) :
    script.build config = .ok assembly := by
  obtain ⟨layout, settled, reached, small, emitted⟩ := laid
  refine build_eq_ok_iff.mpr ⟨layout, settled, ?_, reached, small, ?_⟩
  · refine findings_eq_nil_iff.mpr ⟨names, fun index instruction found => ?_⟩
    have prepared := getElem?_prepared config script index
    rw [found] at prepared
    exact faultless _ (List.mem_of_getElem? prepared)
  · cases emission : Assembly.emit layout script.instructions with
    | ok written =>
      rw [emission] at emitted
      exact congrArg Except.ok (Option.some.inj emitted)
    | error finding =>
      rw [emission] at emitted
      cases emitted

theorem assemble_eq_ok_iff {origin : Origin} {assembly : Assembly} :
    script.assemble origin config = .ok assembly ↔ script.build config = .ok assembly := by
  unfold assemble
  cases script.build config <;> simp

/-! ### Which step finds what -/

theorem stage_of_mem_destinationFaults {labels : Array Label} {size index : Nat}
    {instruction : Instruction} {short : Opcode} {fault : Fault}
    (member : fault ∈ Slot.destinationFaults config labels size index instruction short) :
    fault.stage = .instructions := by
  unfold Slot.destinationFaults at member
  split at member
  · cases member
  · split at member
    · rw [List.mem_singleton.mp member]
      rfl
    · split at member
      · cases member
      · next refused =>
        rw [List.mem_singleton.mp member, Slot.aim_eq_error refused]
        split <;> rfl

/-- **What is found at an instruction alone.** -/
theorem stage_of_mem_prepare {labels : Array Label} {size index : Nat}
    {instruction : Instruction} {fault : Fault}
    (member : fault ∈ (Slot.prepare config labels size index instruction).2) :
    fault.stage = .instructions := by
  cases known : instruction.opcode? with
  | none =>
    rw [Slot.prepare_of_unknown known] at member
    rw [List.mem_singleton.mp member]
    rfl
  | some opcode =>
    rw [Slot.prepare_of_known known, List.mem_append] at member
    rcases member with operands | destination
    · obtain ⟨operand, problem, rfl⟩ := Slot.invalidOperand_of_mem operands
      rfl
    · exact stage_of_mem_destinationFaults destination

theorem stage_of_mem_unreached {labels : Array Label} {layout : Layout} {finding : Finding}
    (member : finding ∈ Assembly.unreached labels layout) : finding.fault.stage = .layout := by
  obtain ⟨⟨slot, index⟩, _, produced⟩ := List.mem_filterMap.mp member
  simp only at produced
  split at produced
  · split at produced
    · cases produced
      rfl
    · cases produced
  · cases produced

theorem stage_of_mem_oversize {layout : Layout} {finding : Finding}
    (member : finding ∈ Assembly.oversize layout) : finding.fault.stage = .layout := by
  unfold Assembly.oversize at member
  split at member
  · cases member
  · rw [List.mem_singleton.mp member]
    rfl

/-! ### Layouts that did not settle -/

/-- The passes alone can fail to settle. -/
theorem isFatal_of_stage {fault : Fault} {stage : Stage} (found : fault.stage = stage)
    (other : stage ≠ .passes) : fault.isFatal = false := by
  cases fault with
  | didNotSettle => exact absurd found.symm other
  | _ => rfl

theorem isFatal_of_mem_findings {finding : Finding} (member : finding ∈ script.findings config) :
    finding.fault.isFatal = false := by
  rcases mem_findings_iff.mp member with duplicate | ⟨instruction, _, alone⟩
  · exact isFatal_of_stage (stage_of_mem_duplicateLabels duplicate) Stage.noConfusion
  · exact isFatal_of_stage (stage_of_mem_prepare alone) Stage.noConfusion

theorem isFatal_of_emit {layout : Layout} {instructions : List Instruction} {finding : Finding}
    (failed : Assembly.emit layout instructions = .error finding) :
    finding.fault.isFatal = false := by
  rcases Traversal.bind_eq_error_iff.mp failed with failed | ⟨_, _, impossible⟩
  · obtain ⟨⟨⟨slot, instruction⟩, index⟩, _, refused⟩ := Traversal.exists_of_mapM_error failed
    simp only [Assembly.emitSlot] at refused
    split at refused
    · cases refused
      rfl
    · split at refused
      · cases refused
      · cases refused
        rfl
  · cases impossible

/-- **If the slots of a script settle, no finding says that they did not.** -/
theorem isFatal_of_build {layout : Layout} {found : List Finding}
    (settled : Layout.settle (Layout.passLimit config script.size) 0 (script.slots config) =
      some layout)
    (failed : script.build config = .error found) :
    ∀ finding ∈ found, finding.fault.isFatal = false := by
  intro finding member
  rw [build_eq, settled] at failed
  simp only at failed
  split at failed
  · split at failed
    · cases failed
    · next own refused =>
      cases failed
      rw [List.mem_singleton.mp member]
      exact isFatal_of_emit refused
  · cases failed
    rw [List.mem_mergeSort, List.mem_append, List.mem_append] at member
    rcases member with (early | unreached) | oversize
    · exact isFatal_of_mem_findings early
    · exact isFatal_of_stage (stage_of_mem_unreached unreached) Stage.noConfusion
    · exact isFatal_of_stage (stage_of_mem_oversize oversize) Stage.noConfusion

end Script

end SceneScript
