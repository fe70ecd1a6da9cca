/-
**What an instruction means in its script.**

An instruction that can be assembled means a row of the catalogue, the bytes of its operands other
than the destination, and the index of the instruction before which its label stands (`Denotes`).
Equivalent scripts are those whose instructions mean the same, up to the width and the direction of
branches.

* `Denotes.unique`: an instruction has at most one meaning;
* `sameInstruction_iff`: an instruction is the same as one that has a meaning if it has that meaning
  too, in a row with the same canonical code;
* `equivalent_iff`, `equivalent_comm`: equivalence compares the instructions one by one, and does
  not depend on the order of the two scripts.
-/

import SceneScript.Proofs.Catalogue
import SceneScript.Proofs.Codec
import SceneScript.Proofs.Traversal

namespace SceneScript.Script

/-- What an instruction means in its script: its row, the bytes of its operands other than the
destination, and the index of the instruction before which its label stands. -/
inductive Denotes (script : Script) (instruction : Instruction) (opcode : Opcode)
    (body : List UInt8) : Option Nat → Prop
  | plain : instruction.opcode? = some opcode → opcode.flow.hasTarget = false →
      Written opcode.leading instruction.operands body → Denotes script instruction opcode body none
  | branch {lead : List Operand} {label place : Nat} :
      instruction.opcode? = some opcode → opcode.flow.hasTarget = true →
      Written opcode.leading lead body → instruction.operands = lead ++ [.label label] →
      script.position? label = some place → place ≤ script.size →
      Denotes script instruction opcode body (some place)

namespace Denotes

variable {script : Script} {instruction : Instruction} {opcode other : Opcode}
  {body body' : List UInt8} {place place' : Option Nat}

theorem known (denotes : script.Denotes instruction opcode body place) :
    instruction.opcode? = some opcode := by
  cases denotes <;> assumption

theorem member (denotes : script.Denotes instruction opcode body place) :
    opcode ∈ Opcode.catalogue :=
  Opcode.mem_of_ofCode? denotes.known

theorem hasTarget_eq (denotes : script.Denotes instruction opcode body place) :
    opcode.flow.hasTarget = place.isSome := by
  cases denotes <;> assumption

theorem place_le (denotes : script.Denotes instruction opcode body place) :
    ∀ index ∈ place, index ≤ script.size := by
  intro index found
  cases denotes with
  | plain => cases found
  | branch _ _ _ _ _ inside =>
    cases found
    exact inside

/-- **An instruction has at most one meaning.** -/
theorem unique (denotes : script.Denotes instruction opcode body place)
    (denotes' : script.Denotes instruction other body' place') :
    opcode = other ∧ body = body' ∧ place = place' := by
  have rows := denotes.known.symm.trans denotes'.known
  cases rows
  have targets := denotes.hasTarget_eq.symm.trans denotes'.hasTarget_eq
  cases denotes with
  | plain _ _ written =>
    cases denotes' with
    | plain _ _ written' => exact ⟨rfl, written.unique written', rfl⟩
    | branch => cases targets
  | branch _ _ written operands position _ =>
    cases denotes' with
    | plain => cases targets
    | branch _ _ written' operands' position' _ =>
      rw [operands] at operands'
      obtain ⟨rfl, last⟩ := List.append_inj' operands' rfl
      cases last
      rw [position] at position'
      cases position'
      exact ⟨rfl, written.unique written', rfl⟩

end Denotes

/-! ### Instructions that mean the same -/

/-- Operands that mean the same in their scripts: labels at one position, or one other operand. -/
inductive SameOperand (left right : Script) : Operand → Operand → Prop
  | label {first second place : Nat} :
      left.position? first = some place → right.position? second = some place →
      SameOperand left right (.label first) (.label second)
  | equal {operand : Operand} :
      (∀ label, operand ≠ .label label) → SameOperand left right operand operand

section Same

variable {left right : Script} {x y : Instruction} {a b : Operand}

theorem sameOperand_iff : sameOperand left right a b = true ↔ SameOperand left right a b := by
  have other : (∀ label, a ≠ .label label) → ((a == b) = true ↔ SameOperand left right a b) := by
    intro noLabel
    rw [beq_iff_eq]
    constructor
    · rintro rfl
      exact .equal noLabel
    · intro same
      cases same with
      | label => exact absurd rfl (noLabel _)
      | equal => rfl
  cases a with
  | scalar value => exact other fun _ => Operand.noConfusion
  | offset value => exact other fun _ => Operand.noConfusion
  | bytes payload => exact other fun _ => Operand.noConfusion
  | label first =>
    cases b with
    | label second =>
      simp only [sameOperand]
      constructor
      · intro same
        split at same
        · next place other position position' =>
          rw [← beq_iff_eq.mp same] at position'
          exact .label position position'
        · cases same
      · intro same
        cases same with
        | label position position' => simp [position, position']
        | equal noLabel => exact absurd rfl (noLabel first)
    | _ =>
      refine iff_of_false (by simp [sameOperand]) fun same => ?_
      cases same

theorem SameOperand.symm (same : SameOperand left right a b) : SameOperand right left b a := by
  cases same with
  | label position position' => exact .label position' position
  | equal noLabel => exact .equal noLabel

/-- Operands without labels are the same as no others. -/
theorem sameOperands_iff_eq {lead operands : List Operand}
    (noLabels : ∀ label, Operand.label label ∉ lead) :
    List.Forall₂ (SameOperand left right) lead operands ↔ operands = lead := by
  constructor
  · intro same
    induction same with
    | nil => rfl
    | cons first _ ih =>
      rw [ih fun label among => noLabels label (List.mem_cons_of_mem _ among)]
      cases first with
      | label => exact absurd List.mem_cons_self (noLabels _)
      | equal => rfl
  · rintro rfl
    refine List.forall₂_same.mpr fun operand among => .equal ?_
    rintro label rfl
    exact noLabels label among

/-- Operands with a label behind them are the same as those with a label at its position. -/
theorem sameOperands_branch_iff {lead operands : List Operand} {label place : Nat}
    (noLabels : ∀ label, Operand.label label ∉ lead)
    (position : left.position? label = some place) :
    List.Forall₂ (SameOperand left right) (lead ++ [.label label]) operands ↔
      ∃ label', operands = lead ++ [.label label'] ∧ right.position? label' = some place := by
  simp only [Traversal.forall₂_concat_left_iff, sameOperands_iff_eq noLabels]
  constructor
  · rintro ⟨_, back, rfl, rfl, same⟩
    cases same with
    | label known position' =>
      rw [position] at known
      cases known
      exact ⟨_, rfl, position'⟩
    | equal noLabel => exact absurd rfl (noLabel label)
  · rintro ⟨label', rfl, position'⟩
    exact ⟨lead, _, rfl, rfl, .label position position'⟩

theorem sameInstruction_eq_true_iff {opcode : Opcode} (known : x.opcode? = some opcode) :
    sameInstruction left right x y = true ↔
      ∃ other, y.opcode? = some other ∧ canonicalCode other = canonicalCode opcode ∧
        List.Forall₂ (SameOperand left right) x.operands y.operands := by
  unfold sameInstruction
  cases known' : y.opcode? with
  | none =>
    have different : x ≠ y := by
      rintro rfl
      rw [known] at known'
      cases known'
    simpa [known] using different
  | some other =>
    simp only [known, Bool.and_eq_true, beq_iff_eq, List.all_eq_true, sameOperand_iff,
      List.forall₂_iff_zip, Option.some.injEq, exists_eq_left']
    constructor
    · rintro ⟨⟨kin, count⟩, each⟩
      exact ⟨kin.symm, count, fun {a b} among => each (a, b) among⟩
    · rintro ⟨kin, count, each⟩
      exact ⟨⟨kin.symm, count⟩, fun _ among => each among⟩

/-- **An instruction is the same as one that has a meaning** if it has that meaning too, in a row
with the same canonical code. -/
theorem sameInstruction_iff (sizes : left.size = right.size) {opcode : Opcode} {body : List UInt8}
    {place : Option Nat} (denotes : left.Denotes x opcode body place) :
    sameInstruction left right x y = true ↔
      ∃ other, right.Denotes y other body place ∧ canonicalCode other = canonicalCode opcode := by
  rw [sameInstruction_eq_true_iff denotes.known]
  constructor
  · rintro ⟨other, known, kin, operands⟩
    refine ⟨other, ?_, kin⟩
    have row := Opcode.mem_of_ofCode? known
    have leading := Opcode.leading_eq_of_kin row denotes.member kin
    have targets := Opcode.hasTarget_eq_of_kin row denotes.member kin
    cases denotes with
    | plain _ still written =>
      rw [sameOperands_iff_eq fun _ => written.not_label] at operands
      rw [still] at targets
      rw [← leading, ← operands] at written
      exact .plain known targets written
    | branch _ branches written split position inside =>
      rw [split, sameOperands_branch_iff (fun _ => written.not_label) position] at operands
      obtain ⟨label', split', position'⟩ := operands
      rw [branches] at targets
      rw [← leading] at written
      exact .branch known targets written split' position' (sizes ▸ inside)
  · rintro ⟨other, denotes', kin⟩
    refine ⟨other, denotes'.known, kin, ?_⟩
    have leading := Opcode.leading_eq_of_kin denotes'.member denotes.member kin
    cases denotes with
    | plain _ _ written =>
      cases denotes' with
      | plain _ _ written' =>
        rw [leading] at written'
        rw [sameOperands_iff_eq fun _ => written.not_label]
        exact written'.operands_unique written
    | branch _ _ written split position _ =>
      cases denotes' with
      | branch _ _ written' split' position' _ =>
        rw [leading] at written'
        rw [split, sameOperands_branch_iff (fun _ => written.not_label) position, split',
          written'.operands_unique written]
        exact ⟨_, rfl, position'⟩

theorem sameInstruction_comm (left right : Script) (x y : Instruction) :
    sameInstruction left right x y = sameInstruction right left y x := by
  have turned : ∀ (left right : Script) (x y : Instruction),
      sameInstruction left right x y = true → sameInstruction right left y x = true := by
    intro left right x y same
    cases known : x.opcode? with
    | none =>
      have equal : x = y := by simpa [sameInstruction, known] using same
      subst equal
      simp [sameInstruction, known]
    | some opcode =>
      obtain ⟨other, known', kin, operands⟩ := (sameInstruction_eq_true_iff known).mp same
      refine (sameInstruction_eq_true_iff known').mpr ⟨opcode, known, kin.symm, ?_⟩
      exact operands.flip.imp fun _ _ same => same.symm
  exact Bool.eq_iff_iff.mpr ⟨turned left right x y, turned right left y x⟩

/-- **Equivalence compares the instructions one by one.** -/
theorem equivalent_iff :
    left.equivalent right = true ↔
      left.size = right.size ∧
        ∀ (index : Nat) (x y : Instruction), left.instructions[index]? = some x →
          right.instructions[index]? = some y → sameInstruction left right x y = true := by
  have zipped : left.equivalent right = true ↔
      List.Forall₂ (fun x y => sameInstruction left right x y = true) left.instructions
        right.instructions := by
    simp only [equivalent, size, Bool.and_eq_true, beq_iff_eq, List.all_eq_true,
      List.forall₂_iff_zip]
    exact and_congr_right fun _ => ⟨fun each {x y} among => each (x, y) among,
      fun each _ among => each among⟩
  rw [zipped, Traversal.forall₂_iff_getElem?]
  rfl

/-- Equivalence does not depend on the order of the two scripts. -/
theorem equivalent_comm (left right : Script) : left.equivalent right = right.equivalent left := by
  have turned : ∀ left right : Script, left.equivalent right = true →
      right.equivalent left = true := by
    intro left right same
    obtain ⟨sizes, each⟩ := equivalent_iff.mp same
    refine equivalent_iff.mpr ⟨sizes.symm, fun index x y found found' => ?_⟩
    rw [sameInstruction_comm]
    exact each index y x found' found
  exact Bool.eq_iff_iff.mpr ⟨turned left right, turned right left⟩

end Same

end SceneScript.Script
