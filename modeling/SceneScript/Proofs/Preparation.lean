/-
**Slots before layout.**

What `Slot.prepare` makes of an instruction, whether or not anything is wrong with it:

* `aim_eq_ok`: the opcode chosen for a side is a row of the same kind that goes to that side;
* `aim_isOk_iff`: if jumps may be turned, only a conditional branch backward has no such opcode;
* `prepare_of_known`: what is found at an instruction, at its operands first and then at its
  destination;
* `prepare_of_target`: a slot with a target is a branch to a position of the script, in the short
  form that goes to its side;
* `sound_prepare`: the opcode of a slot is a row, and its target names the side on which it lies;
* `size_prepare`: a slot that can be made long has a small and even length.
-/

import SceneScript.Proofs.Passes

namespace SceneScript

open Script (canonicalCode)

/-- The label that an instruction branches to is its operand behind the leading ones. -/
theorem Instruction.target?_eq_some_iff {instruction : Instruction} {opcode : Opcode} {label : Nat}
    (known : instruction.opcode? = some opcode) :
    instruction.target? = some label ↔
      opcode.flow.hasTarget = true ∧
        instruction.operands[opcode.leading.length]? = some (.label label) := by
  have label?_iff : ∀ operand : Operand, operand.label? = some label ↔ operand = .label label := by
    intro operand
    cases operand <;> simp [Operand.label?]
  unfold target? branchOperand?
  rw [known, Option.bind_some, Opcode.branchOperand?_eq (Opcode.mem_of_ofCode? known)]
  unfold Flow.hasTarget
  cases opcode.flow.width? with
  | none => simp
  | some width => simp [Option.bind_eq_some_iff, label?_iff]

theorem sum_sizes_of_fixed {shapes : List Shape} {operands : List Operand} {start size : Nat}
    (fixed : shapes.foldlM (fun size shape => shape.width?.map (size + ·)) start = some size)
    (enough : shapes.length ≤ operands.length) :
    ((shapes.zip operands).map fun (shape, operand) => (operand.size? shape).getD 1).sum + start =
      size := by
  induction shapes generalizing operands start with
  | nil => simpa using fixed
  | cons shape shapes ih =>
    cases operands with
    | nil => cases enough
    | cons operand operands =>
      rw [List.foldlM_cons] at fixed
      cases width : shape.width? with
      | none =>
        rw [width] at fixed
        cases fixed
      | some bytes =>
        rw [width] at fixed
        have rest := ih fixed (Nat.le_of_succ_le_succ enough)
        have own : operand.size? shape = some bytes := by
          unfold Operand.size?
          rw [width]
        simp only [List.zip_cons_cons, List.map_cons, List.sum_cons, own,
          Option.getD_some] at rest ⊢
        omega

namespace Slot

variable {config : AssemblyConfig} {labels : Array Label} {size index : Nat}
  {instruction : Instruction} {opcode aimed : Opcode} {backward : Bool}

theorem length_eq (opcode : Opcode) (operands : List Operand) :
    length opcode operands =
      ((opcode.shapes.zip operands).map fun (shape, operand) =>
        (operand.size? shape).getD 1).sum + 1 := by
  unfold length
  generalize (opcode.shapes.zip operands).map _ = sizes
  induction sizes with
  | nil => rfl
  | cons first sizes ih => rw [List.foldr_cons, List.sum_cons, ih, Nat.add_assoc]

/-- The length of an instruction whose opcode has a fixed length, if no operand is missing. -/
theorem length_of_fixedSize? {operands : List Operand} (fixed : opcode.fixedSize? = some size)
    (enough : opcode.shapes.length ≤ operands.length) : length opcode operands = size :=
  (length_eq opcode operands).trans (sum_sizes_of_fixed fixed enough)

/-! ### Directions -/

/-- **The opcode chosen for a side** is of the same kind and width, and goes to that side. -/
theorem aim_eq_ok (member : opcode ∈ Opcode.catalogue)
    (chosen : aim config opcode backward = .ok aimed) :
    aimed ∈ Opcode.catalogue ∧ canonicalCode aimed = canonicalCode opcode ∧
      aimed.flow.width? = opcode.flow.width? ∧ aimed.flow.isBackward = backward := by
  unfold aim at chosen
  split at chosen
  · next same =>
    cases chosen
    exact ⟨member, rfl, rfl, same⟩
  · next different =>
    split at chosen
    · next reversed turned flips =>
      cases chosen
      obtain ⟨row, flow, kin⟩ := Opcode.reversed?_mem member turned
      refine ⟨row, kin, ?_, ?_⟩
      · rw [flow, Flow.width?_reverse]
      · rw [flow, Flow.isBackward_reverse (Opcode.isJump_of_reversed? turned)]
        cases backward <;> simpa using different
    · cases chosen

/-- **If jumps may be turned, only a conditional branch backward has no opcode.** -/
theorem aim_isOk_iff (flips : config.flipJumps = true) (member : opcode ∈ Opcode.catalogue)
    (branches : opcode.flow.hasTarget = true) :
    (∃ aimed, aim config opcode backward = .ok aimed) ↔
      ¬(opcode.flow.isConditional = true ∧ backward = true) := by
  unfold aim
  by_cases same : opcode.flow.isBackward = backward
  · rw [if_pos same]
    refine iff_of_true ⟨opcode, rfl⟩ ?_
    rintro ⟨conditional, rfl⟩
    rw [Flow.isBackward_of_isConditional conditional] at same
    cases same
  · rw [if_neg same, flips]
    cases conditional : opcode.flow.isConditional with
    | true =>
      rw [Flow.isBackward_of_isConditional conditional] at same
      have noTurn : opcode.reversed? = none := by
        cases turned : opcode.reversed? with
        | none => rfl
        | some reversed =>
          have jumps := Opcode.isJump_of_reversed? turned
          cases flow : opcode.flow <;> simp_all [Flow.isJump, Flow.isConditional]
      rw [noTurn]
      cases backward with
      | false => exact absurd rfl same
      | true => simp
    | false =>
      have jumps := Flow.isJump_of_hasTarget branches conditional
      obtain ⟨reversed, turned⟩ :=
        Option.isSome_iff_exists.mp (Opcode.reversed?_isSome member jumps)
      rw [turned]
      simp

/-- If there is no opcode for a side, the reason says which side it is. -/
theorem aim_eq_error {reason : Unreachable} (refused : aim config opcode backward = .error reason) :
    reason = if backward then .backwardReference else .forwardReference := by
  unfold aim at refused
  split at refused
  · cases refused
  · split at refused
    · cases refused
    · exact (Except.error.inj refused).symm

/-! ### What is found -/

theorem invalidOperand_of_mem {operands : List Operand} {fault : Fault}
    (member : fault ∈ operandFaults opcode operands) :
    ∃ operand problem, fault = .invalidOperand operand problem := by
  unfold operandFaults at member
  simp only at member
  split at member
  · obtain ⟨⟨⟨shape, operand⟩, place⟩, _, produced⟩ := List.mem_filterMap.mp member
    simp only [operandFault?] at produced
    split at produced <;> split at produced <;> cases produced <;> exact ⟨_, _, rfl⟩
  · exact ⟨_, _, List.mem_singleton.mp member⟩

/-- What is wrong with the destination of an instruction, given its short form. -/
def destinationFaults (config : AssemblyConfig) (labels : Array Label) (size index : Nat)
    (instruction : Instruction) (short : Opcode) : List Fault :=
  match instruction.target? with
  | none => []
  | some label =>
    match (labels[label]?.bind Label.position).filter (· ≤ size) with
    | none => [.undefinedLabel (labelName labels label)]
    | some place =>
      match aim config short (place ≤ index) with
      | .ok _ => []
      | .error reason => [.unreachableLabel (labelName labels label) reason]

theorem prepare_of_unknown (unknown : instruction.opcode? = none) :
    (prepare config labels size index instruction).2 = [.unknownOpcode instruction.opcode] := by
  rw [prepare, unknown]

/-- **What is found at an instruction**: what is wrong with its operands, and then with its
destination. -/
theorem prepare_of_known (known : instruction.opcode? = some opcode) :
    (prepare config labels size index instruction).2 =
      operandFaults opcode.family instruction.operands ++
        destinationFaults config labels size index instruction opcode.family := by
  rw [prepare, known, destinationFaults]
  cases instruction.target? with
  | none => exact (List.append_nil _).symm
  | some label =>
    simp only
    cases (labels[label]?.bind Label.position).filter (· ≤ size) with
    | none => rfl
    | some place =>
      simp only
      cases aim config opcode.family (place ≤ index) with
      | ok aimed => exact (List.append_nil _).symm
      | error reason => rfl

/-! ### Targets -/

/-- **A slot with a target** is a branch to a position of the script, in the short form that goes to
its side. -/
theorem prepare_of_target {target : Target}
    (targeted : (prepare config labels size index instruction).1.target = some target) :
    ∃ opcode aimed, instruction.opcode? = some opcode ∧
      instruction.target? = some target.label ∧ target.index ≤ size ∧
      target.backward = decide (target.index ≤ index) ∧
      aim config opcode.family target.backward = .ok aimed ∧
      (prepare config labels size index instruction).1 =
        { opcode := some aimed
          size := length aimed instruction.operands
          target := some target } := by
  unfold prepare at targeted ⊢
  split at targeted
  · cases targeted
  · next opcode known =>
    simp only at targeted ⊢
    split at targeted
    · cases targeted
    · next label named =>
      split at targeted
      · cases targeted
      · next place found =>
        split at targeted
        · next aimed chosen =>
          cases targeted
          have inside := (Option.filter_eq_some_iff.mp found).2
          exact ⟨opcode, aimed, known, named, by simpa using inside, rfl, chosen, rfl⟩
        · cases targeted

theorem mem_of_prepare
    (chosen : (prepare config labels size index instruction).1.opcode = some opcode) :
    opcode ∈ Opcode.catalogue := by
  unfold prepare at chosen
  split at chosen
  · cases chosen
  · next row known =>
    have familyRow := (Opcode.family_mem (Opcode.mem_of_ofCode? known)).1
    simp only at chosen
    split at chosen
    · cases chosen
      exact familyRow
    · split at chosen
      · cases chosen
        exact familyRow
      · split at chosen
        · next aimed aims =>
          cases chosen
          exact (aim_eq_ok familyRow aims).1
        · cases chosen
          exact familyRow

/-- **The opcode of a slot is a row, and its target names the side on which it lies.** -/
theorem sound_prepare (config : AssemblyConfig) (labels : Array Label) (size index : Nat)
    (instruction : Instruction) :
    (prepare config labels size index instruction).1.Sound size index := by
  refine ⟨mem_of_prepare, fun targeted => ?_, fun targeted => ?_⟩
  · obtain ⟨_, _, _, _, inside, _, _, _⟩ := prepare_of_target targeted
    exact inside
  · obtain ⟨_, _, _, _, _, side, _, _⟩ := prepare_of_target targeted
    exact side

/-- Whether a slot is a branch that has a long form. -/
def canGrow (slot : Slot) : Bool :=
  slot.target.isSome && (slot.opcode.bind Opcode.longTwin?).isSome

/-- **A slot that can be made long has a small and even length**, also with operands too many. -/
theorem size_prepare (grows : (prepare config labels size index instruction).1.canGrow = true) :
    2 ∣ (prepare config labels size index instruction).1.size ∧
      (prepare config labels size index instruction).1.size ≤ 8 := by
  unfold canGrow at grows
  rw [Bool.and_eq_true] at grows
  obtain ⟨target, targeted⟩ := Option.isSome_iff_exists.mp grows.1
  obtain ⟨opcode, aimed, known, named, _, _, chosen, slot⟩ := prepare_of_target targeted
  rw [slot] at grows ⊢
  have row := Opcode.mem_of_ofCode? known
  obtain ⟨familyRow, familyFlow, familyKin⟩ := Opcode.family_mem row
  obtain ⟨aimedRow, aimedKin, aimedWidth, _⟩ := aim_eq_ok familyRow chosen
  obtain ⟨length, fixed, even, small⟩ := Opcode.fixedSize?_of_longTwin? aimedRow grows.2
  have enough : aimed.shapes.length ≤ instruction.operands.length := by
    obtain ⟨branches, located⟩ := (Instruction.target?_eq_some_iff known).mp named
    have inside := (List.getElem?_eq_some_iff.mp located).1
    have width : aimed.flow.width? = some .short := by
      rw [aimedWidth, familyFlow, Flow.width?_resize branches]
    rw [Opcode.shapes_of_branch aimedRow width,
      Opcode.leading_eq_of_kin aimedRow row (aimedKin.trans familyKin), List.length_append]
    exact inside
  rw [length_of_fixedSize? fixed enough]
  exact ⟨even, small⟩

end Slot

end SceneScript
