/-
**What is wrong with an instruction alone.**

Nothing is wrong with an instruction if it has a meaning in its script and its branch goes to a side
to which there is an opcode; its slot then holds that meaning in a short form.

* `operandFaults_eq_nil_iff`: nothing is wrong with operands if each of them suits its shape;
* `denotes_of_prepare`: an instruction that nothing is wrong with has a meaning;
* `prepare_of_denotes`: nothing is wrong with an instruction that has a meaning and a side to go to,
  and its slot holds the meaning (`Slot.Holds`) in a short form;
* `Denotes.size?_eq`: an instruction that has a meaning announces the length of its own form.
-/

import SceneScript.Proofs.LaidOut
import SceneScript.Proofs.Preparation

namespace SceneScript

open Script (canonicalCode)

/-- A branch goes to the label behind its other operands. -/
theorem Instruction.target?_of_written {instruction : Instruction} {opcode : Opcode}
    {lead : List Operand} {label : Nat} {body : List UInt8}
    (known : instruction.opcode? = some opcode) (branches : opcode.flow.hasTarget = true)
    (written : Written opcode.leading lead body)
    (operands : instruction.operands = lead ++ [.label label]) :
    instruction.target? = some label := by
  refine (target?_eq_some_iff known).mpr ⟨branches, ?_⟩
  rw [operands, written.length_eq, List.getElem?_concat_length]

namespace Script.Denotes

variable {script : Script} {instruction : Instruction} {opcode : Opcode} {body : List UInt8}

/-- A branch with a meaning names a label that stands at its target. -/
theorem exists_label {target : Nat}
    (denotes : script.Denotes instruction opcode body (some target)) :
    ∃ label, instruction.target? = some label ∧ script.position? label = some target := by
  cases denotes with
  | @branch _ label _ known branches written operands position _ =>
    exact ⟨label, Instruction.target?_of_written known branches written operands, position⟩

/-- The label that an instruction with a meaning names stands at its target. -/
theorem place_eq {place : Option Nat} (denotes : script.Denotes instruction opcode body place)
    {label target : Nat} (named : instruction.target? = some label)
    (position : script.position? label = some target) : place = some target := by
  have branches := ((Instruction.target?_eq_some_iff denotes.known).mp named).1
  rw [denotes.hasTarget_eq] at branches
  obtain ⟨own, rfl⟩ := Option.isSome_iff_exists.mp branches
  obtain ⟨label', named', position'⟩ := denotes.exists_label
  obtain rfl := Option.some.inj (named.symm.trans named')
  exact position'.symm.trans position

end Script.Denotes

namespace Slot

/-! ### Operands -/

/-- An operand that nothing is wrong with: a label for a destination, and otherwise a value that the
shape can hold. -/
def Suits (shape : Shape) (operand : Operand) : Prop :=
  if shape.isBranch then ∃ label, operand = .label label
  else ∃ bytes, operand.encode shape = .ok bytes

variable {opcode : Opcode} {operands : List Operand}

theorem operandFault?_eq_none_iff {place : Nat} {shape : Shape} {operand : Operand} :
    operandFault? place shape operand = none ↔ Suits shape operand := by
  unfold operandFault? Suits
  cases shape.isBranch with
  | true => cases operand <;> simp
  | false => cases operand.encode shape <;> simp

/-- **Nothing is wrong with operands** if each of them suits its shape. -/
theorem operandFaults_eq_nil_iff :
    operandFaults opcode operands = [] ↔ List.Forall₂ Suits opcode.shapes operands := by
  unfold operandFaults
  rw [List.forall₂_iff_zip]
  by_cases count : opcode.shapes.length = operands.length
  · simp only [count, if_true, List.filterMap_eq_nil_iff, operandFault?_eq_none_iff, true_and]
    constructor
    · intro each shape operand among
      obtain ⟨place, found⟩ := List.mem_iff_getElem?.mp among
      exact each ((shape, operand), place) (List.mem_zipIdx_iff_getElem?.mpr found)
    · rintro each ⟨⟨shape, operand⟩, place⟩ among
      exact each (List.mem_of_getElem? (List.mem_zipIdx_iff_getElem?.mp among))
  · simp [count]

theorem forall₂_suits_iff {shapes : List Shape}
    (values : ∀ shape ∈ shapes, shape.isBranch = false) :
    List.Forall₂ Suits shapes operands ↔ ∃ body, Written shapes operands body := by
  constructor
  · intro suits
    induction suits with
    | nil => exact ⟨[], .nil⟩
    | @cons shape operand _ _ suits _ ih =>
      obtain ⟨body, written⟩ := ih fun other among => values other (List.mem_cons_of_mem _ among)
      rw [Suits, values shape List.mem_cons_self] at suits
      obtain ⟨bytes, encoded⟩ := suits
      exact ⟨bytes ++ body, .cons encoded written⟩
  · rintro ⟨body, written⟩
    induction written with
    | nil => exact .nil
    | @cons shape _ _ _ front _ encoded _ ih =>
      refine .cons ?_ (ih fun other among => values other (List.mem_cons_of_mem _ among))
      rw [Suits, values shape List.mem_cons_self]
      exact ⟨front, encoded⟩

theorem operandFaults_of_plain (member : opcode ∈ Opcode.catalogue)
    (still : opcode.flow.hasTarget = false) :
    operandFaults opcode operands = [] ↔ ∃ body, Written opcode.leading operands body := by
  rw [operandFaults_eq_nil_iff,
    Opcode.shapes_of_plain member (Flow.hasTarget_eq_false_iff.mp still),
    forall₂_suits_iff fun _ => Opcode.not_isBranch_of_mem_leading]

theorem operandFaults_of_branch (member : opcode ∈ Opcode.catalogue)
    (branches : opcode.flow.hasTarget = true) :
    operandFaults opcode operands = [] ↔
      ∃ lead label body, operands = lead ++ [.label label] ∧
        Written opcode.leading lead body := by
  obtain ⟨width, known⟩ := Option.isSome_iff_exists.mp branches
  have isBranch : width.shape.isBranch = true := by cases width <;> rfl
  have suits : ∀ operand, Suits width.shape operand ↔ ∃ label, operand = .label label := by
    intro operand
    rw [Suits, isBranch, if_pos rfl]
  simp only [operandFaults_eq_nil_iff, Opcode.shapes_of_branch member known,
    Traversal.forall₂_concat_left_iff, suits,
    forall₂_suits_iff fun _ => Opcode.not_isBranch_of_mem_leading]
  constructor
  · rintro ⟨lead, _, rfl, ⟨body, written⟩, label, rfl⟩
    exact ⟨lead, label, body, rfl, written⟩
  · rintro ⟨lead, label, body, rfl, written⟩
    exact ⟨lead, _, rfl, ⟨body, written⟩, label, rfl⟩

/-! ### Lengths -/

variable {lead : List Operand} {body : List UInt8}

theorem length_of_plain (member : opcode ∈ Opcode.catalogue)
    (still : opcode.flow.hasTarget = false) (written : Written opcode.leading operands body) :
    length opcode operands = 1 + body.length + opcode.flow.destinationSize := by
  rw [← Opcode.shapes_of_plain member (Flow.hasTarget_eq_false_iff.mp still)] at written
  rw [length_eq, written.length_sum, Flow.destinationSize_of_plain still]
  omega

theorem length_of_branch (member : opcode ∈ Opcode.catalogue)
    (branches : opcode.flow.hasTarget = true) (written : Written opcode.leading lead body)
    (last : Operand) :
    length opcode (lead ++ [last]) = 1 + body.length + opcode.flow.destinationSize := by
  obtain ⟨width, known⟩ := Option.isSome_iff_exists.mp branches
  have wide : last.size? width.shape = some width.bytes := by
    cases width <;> rfl
  rw [length_eq, Opcode.shapes_of_branch member known, List.zip_append written.length_eq,
    List.map_append, List.sum_append, written.length_sum, Flow.destinationSize_of_width? known]
  simp only [List.zip_cons_cons, List.zip_nil_right, List.map_cons, List.map_nil, wide,
    Option.getD_some, List.sum_singleton]
  omega

/-! ### Slots -/

/-- A slot that holds a meaning in a given form: the length is that of the form, and the form goes
to the side of the target. -/
structure Holds (slot : Slot) (index : Nat) (form : Opcode) (body : List UInt8)
    (place : Option Nat) : Prop where
  chosen : slot.opcode = some form
  member : form ∈ Opcode.catalogue
  targeted : slot.target.map Target.index = place
  hasTarget_eq : form.flow.hasTarget = place.isSome
  side : ∀ target ∈ place, form.flow.isBackward = decide (target ≤ index)
  sized : slot.size = 1 + body.length + form.flow.destinationSize

/-- The form and the target of a slot are those of its meaning. -/
theorem Holds.eq_of_target {slot : Slot} {index : Nat} {form other : Opcode} {place : Option Nat}
    (holds : slot.Holds index form body place) (chosen : slot.opcode = some other)
    {target : Target} (targeted : slot.target = some target) :
    form = other ∧ place = some target.index := by
  have place_eq := holds.targeted
  rw [targeted, Option.map_some] at place_eq
  exact ⟨Option.some.inj (holds.chosen.symm.trans chosen), place_eq.symm⟩

section Prepare

variable {config : AssemblyConfig} {script : Script} {index : Nat} {instruction : Instruction}

/-- **An instruction that nothing is wrong with has a meaning**, and there is an opcode to the side
of its target. -/
theorem denotes_of_prepare
    (sound : (prepare config script.labels script.size index instruction).2 = []) :
    ∃ opcode body place, script.Denotes instruction opcode body place ∧
      ∀ target ∈ place,
        ∃ aimed, aim config opcode.family (decide (target ≤ index)) = .ok aimed := by
  unfold prepare at sound
  cases known : instruction.opcode? with
  | none => simp [known] at sound
  | some opcode =>
    have row := Opcode.mem_of_ofCode? known
    obtain ⟨familyRow, _, kin⟩ := Opcode.family_mem row
    have leading := Opcode.leading_eq_of_kin familyRow row kin
    have branches := Opcode.hasTarget_eq_of_kin familyRow row kin
    simp only [known] at sound
    cases named : instruction.target? with
    | none =>
      simp only [named] at sound
      cases targets : opcode.flow.hasTarget with
      | true =>
        obtain ⟨lead, label, body, operands, written⟩ :=
          (operandFaults_of_branch familyRow (branches.trans targets)).mp sound
        rw [leading] at written
        rw [Instruction.target?_of_written known targets written operands] at named
        cases named
      | false =>
        obtain ⟨body, written⟩ :=
          (operandFaults_of_plain familyRow (branches.trans targets)).mp sound
        rw [leading] at written
        exact ⟨opcode, body, none, .plain known targets written, by simp⟩
    | some label =>
      have targets := ((Instruction.target?_eq_some_iff known).mp named).1
      simp only [named] at sound
      split at sound
      · simp at sound
      · next place found =>
        obtain ⟨position, inside⟩ := Option.filter_eq_some_iff.mp found
        split at sound
        · next aimed chosen =>
          obtain ⟨lead, label', body, operands, written⟩ :=
            (operandFaults_of_branch familyRow (branches.trans targets)).mp sound
          rw [leading] at written
          rw [Instruction.target?_of_written known targets written operands] at named
          cases named
          refine ⟨opcode, body, some place, .branch known targets written operands position ?_, ?_⟩
          · simpa using inside
          · intro target same
            cases same
            exact ⟨aimed, chosen⟩
        · simp at sound

/-- **Nothing is wrong with an instruction that has a meaning** and an opcode to the side of its
target; its slot holds the meaning in a short form. -/
theorem prepare_of_denotes {opcode : Opcode} {body : List UInt8} {place : Option Nat}
    (denotes : script.Denotes instruction opcode body place)
    (aims : ∀ target ∈ place,
      ∃ aimed, aim config opcode.family (decide (target ≤ index)) = .ok aimed) :
    (prepare config script.labels script.size index instruction).2 = [] ∧
      ∃ form, (prepare config script.labels script.size index instruction).1.Holds index form body
          place ∧
        canonicalCode form = canonicalCode opcode ∧ form.flow.isLong = false := by
  have row := denotes.member
  obtain ⟨familyRow, short, kin⟩ := Opcode.family_mem row
  cases denotes with
  | plain known still written =>
    have unnamed : instruction.target? = none := by
      cases named : instruction.target? with
      | none => rfl
      | some label =>
        have branches := ((Instruction.target?_eq_some_iff known).mp named).1
        rw [still] at branches
        cases branches
    have family := Opcode.family_of_plain still
    simp only [prepare, known, unnamed, family]
    refine ⟨(operandFaults_of_plain row still).mpr ⟨body, written⟩, opcode, ?_, rfl, ?_⟩
    · exact ⟨rfl, row, rfl, still, by simp, length_of_plain row still written⟩
    · rw [Flow.isLong, Flow.hasTarget_eq_false_iff.mp still]
      rfl
  | @branch lead label place known branches written operands position inside =>
    have named := Instruction.target?_of_written known branches written operands
    have found : (script.labels[label]?.bind Label.position).filter (· ≤ script.size) =
        some place :=
      Option.filter_eq_some_iff.mpr ⟨position, by simpa using inside⟩
    obtain ⟨aimed, chosen⟩ := aims place rfl
    obtain ⟨aimedRow, aimedKin, width, side⟩ := aim_eq_ok familyRow chosen
    have toOpcode := aimedKin.trans kin
    have aimedBranches := (Opcode.hasTarget_eq_of_kin aimedRow row toOpcode).trans branches
    simp only [prepare, known, named, found, chosen]
    refine ⟨?_, aimed, ⟨rfl, aimedRow, rfl, aimedBranches, ?_, ?_⟩, toOpcode, ?_⟩
    · have familyBranches := (Opcode.hasTarget_eq_of_kin familyRow row kin).trans branches
      rw [← Opcode.leading_eq_of_kin familyRow row kin] at written
      exact (operandFaults_of_branch familyRow familyBranches).mpr
        ⟨lead, label, body, operands, written⟩
    · intro target same
      cases same
      exact side
    · rw [← Opcode.leading_eq_of_kin aimedRow row toOpcode] at written
      rw [operands]
      exact length_of_branch aimedRow aimedBranches written _
    · rw [Flow.isLong, width, short, Flow.width?_resize branches]
      rfl

end Prepare

end Slot

/-- **An instruction with a meaning announces the length of its own form.** -/
theorem Script.Denotes.size?_eq {script : Script} {instruction : Instruction} {opcode : Opcode}
    {body : List UInt8} {place : Option Nat}
    (denotes : script.Denotes instruction opcode body place) :
    instruction.size? = some (1 + body.length + opcode.flow.destinationSize) := by
  have announce : ∀ {shapes : List Shape}, opcode.shapes = shapes →
      (∀ pair ∈ shapes.zip instruction.operands, (pair.2.size? pair.1).isSome = true) →
      instruction.size? = some (Slot.length opcode instruction.operands) := by
    rintro shapes rfl announced
    rw [Instruction.size?_eq denotes.known announced, Slot.length_eq, Nat.add_comm]
  have member := denotes.member
  cases denotes with
  | plain known still written =>
    rw [announce (Opcode.shapes_of_plain member (Flow.hasTarget_eq_false_iff.mp still))
      written.size?_isSome, Slot.length_of_plain member still written]
  | @branch lead label place known branches written operands _ _ =>
    obtain ⟨width, wide⟩ := Option.isSome_iff_exists.mp branches
    have whole := Opcode.shapes_of_branch member wide
    rw [announce whole, operands, Slot.length_of_branch member branches written]
    rw [operands, List.zip_append written.length_eq]
    intro pair among
    rcases List.mem_append.mp among with front | last
    · exact written.size?_isSome pair front
    · obtain rfl := List.mem_singleton.mp last
      cases width <;> rfl

end SceneScript
