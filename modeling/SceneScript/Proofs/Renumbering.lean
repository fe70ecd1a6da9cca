/-
**Labels that get new numbers.**

`Script.ofParts` numbers the labels by their places, and lets operands go on naming the labels that
they named. The old numbers and the places are numbers of one kind, in any relation to each other:
a label may get the number that another one had. An operand whose number no label had is left as it
is, so it names nothing only if its number is not the place of a label now.

* `label?_ofParts`: a label is found at its place, with its name and its position;
* `relocate_of_carried`, `relocate_of_missing`: what becomes of an operand that names a label,
  and of one that names none;
* `follows_ofParts_iff`: an operand refers to what it referred to (`Follows`), unless it named no
  label and its number is the place of one (`Captured`).
-/

import SceneScript.Script
import Mathlib.Data.List.Forall2

namespace SceneScript.Script

variable {id : UInt8} {instructions : List Instruction} {labels : Array Label}

/-- Operands that refer to the same thing: the first among labels that carry numbers of their own,
the second in a script whose labels are the same ones, numbered by their places. -/
inductive Follows (labels : Array Label) (script : Script) : Operand → Operand → Prop
  | carried {number place : Nat} {label : Label} :
      labels[place]? = some label → label.id = number →
      ∀ {number' : Nat}, script.label? number' = some { label with id := place } →
      Follows labels script (.label number) (.label number')
  | missing {number number' : Nat} : (∀ label ∈ labels, label.id ≠ number) →
      script.label? number' = none → Follows labels script (.label number) (.label number')
  | plain {operand : Operand} : (∀ number, operand ≠ .label number) →
      Follows labels script operand operand

/-- An operand that names no label, while its number is the place of one. -/
def Captured (labels : Array Label) (operand : Operand) : Prop :=
  ∃ number, operand = .label number ∧ number < labels.size ∧ ∀ label ∈ labels, label.id ≠ number

/-- Instructions with the same opcodes, whose operands are related one by one. -/
def Operandwise (related : Operand → Operand → Prop) : List Instruction → List Instruction → Prop :=
  List.Forall₂ fun before after => after.opcode = before.opcode ∧
    List.Forall₂ related before.operands after.operands

/-- **A label is found at its place**, with its name and its position. -/
theorem label?_ofParts (id : UInt8) (instructions : List Instruction) (labels : Array Label)
    (place : Nat) :
    (ofParts id instructions labels).label? place =
      labels[place]?.map fun label => { label with id := place } :=
  Array.getElem?_mapIdx

/-! ### Operands -/

/-- Operands that name a label cannot be captured. -/
theorem not_captured_of_mem {label : Label} (member : label ∈ labels) :
    ¬ Captured labels (.label label.id) := by
  rintro ⟨_, same, _, missing⟩
  cases same
  exact missing label member rfl

/-- Of the operands that name no label, those are free whose number is too large for a place. -/
theorem not_captured_iff {number : Nat} (missing : ∀ label ∈ labels, label.id ≠ number) :
    ¬ Captured labels (.label number) ↔ labels.size ≤ number := by
  rw [← Nat.not_lt]
  refine not_congr ⟨?_, fun inside => ⟨number, rfl, inside, missing⟩⟩
  rintro ⟨_, same, inside, _⟩
  cases same
  exact inside

/-- A label whose number is its own is found under that number. -/
theorem findIdx?_of_carried (distinct : (labels.toList.map Label.id).Nodup) {place : Nat}
    {label : Label} (found : labels[place]? = some label) :
    labels.findIdx? (·.id == label.id) = some place := by
  obtain ⟨inside, rfl⟩ := Array.getElem?_eq_some_iff.mp found
  refine Array.findIdx?_eq_some_iff_getElem.mpr ⟨inside, beq_self_eq_true _, ?_⟩
  intro earlier before same
  have ids := List.pairwise_iff_getElem.mp distinct earlier place (by simp; omega) (by simpa) before
  simp only [List.getElem_map, Array.getElem_toList] at ids
  exact ids (beq_iff_eq.mp same)

theorem relocate_of_carried (distinct : (labels.toList.map Label.id).Nodup) {place : Nat}
    {label : Label} (found : labels[place]? = some label) :
    relocate labels (.label label.id) = .label place := by
  rw [relocate, findIdx?_of_carried distinct found, Option.getD_some]

theorem relocate_of_missing {number : Nat} (missing : ∀ label ∈ labels, label.id ≠ number) :
    relocate labels (.label number) = .label number := by
  have nowhere : labels.findIdx? (·.id == number) = none := by
    simpa using missing
  rw [relocate, nowhere, Option.getD_none]

/-- An operand that names a label goes on naming it; one that names none may be captured. -/
theorem follows_relocate_iff (distinct : (labels.toList.map Label.id).Nodup) (operand : Operand) :
    Follows labels (ofParts id instructions labels) operand (relocate labels operand) ↔
      ¬ Captured labels operand := by
  cases operand with
  | label number =>
    by_cases carried : ∃ label ∈ labels, label.id = number
    · obtain ⟨label, member, rfl⟩ := carried
      obtain ⟨place, found⟩ := Array.mem_iff_getElem?.mp member
      refine iff_of_true ?_ (not_captured_of_mem member)
      rw [relocate_of_carried distinct found]
      refine .carried found rfl ?_
      rw [label?_ofParts, found, Option.map_some]
    · have missing : ∀ label ∈ labels, label.id ≠ number :=
        fun label member same => carried ⟨label, member, same⟩
      rw [relocate_of_missing missing, not_captured_iff missing, ← Array.getElem?_eq_none_iff,
        ← Option.map_eq_none_iff, ← label?_ofParts id instructions]
      refine ⟨fun follows => ?_, .missing missing⟩
      cases follows with
      | carried found same => exact absurd same (missing _ (Array.mem_of_getElem? found))
      | missing _ nothing => exact nothing
      | plain noLabel => exact absurd rfl (noLabel number)
  | scalar | offset | bytes =>
    refine iff_of_true (.plain fun _ => Operand.noConfusion) ?_
    rintro ⟨_, impossible, _⟩
    cases impossible

/-! ### Scripts -/

/-- **Operands follow their labels.** If the labels have different numbers, each of them is found at
its place afterwards, with its name and its position, and every operand refers to what it referred
to, unless it is captured. -/
theorem follows_ofParts_iff (id : UInt8) (instructions : List Instruction) {labels : Array Label}
    (distinct : (labels.toList.map Label.id).Nodup) :
    (∀ place, (ofParts id instructions labels).label? place =
      labels[place]?.map fun label => { label with id := place }) ∧
    Operandwise (fun operand operand' =>
        Follows labels (ofParts id instructions labels) operand operand' ↔
          ¬ Captured labels operand)
      instructions (ofParts id instructions labels).instructions := by
  refine ⟨label?_ofParts id instructions labels, ?_⟩
  refine List.forall₂_map_right_iff.mpr (List.forall₂_same.mpr fun instruction _ => ⟨rfl, ?_⟩)
  refine List.forall₂_map_right_iff.mpr (List.forall₂_same.mpr fun operand _ => ?_)
  exact follows_relocate_iff distinct operand

/-- Two labels, each with the place of the other for its number, and a third one. -/
def crossed : Array Label :=
  #[{ id := 1, name := "a", position := some 2 }, { id := 0, name := "b", position := none },
    { id := 7, name := "c", position := some 0 }]

/-- Branches that name a label of `crossed`, and one that names none. -/
def crossing : List Instruction := [.jump 0, .branch 0x30 [2] 7, .jump 9]

theorem follows_ofParts_iff_crossed :
    (crossed.toList.map Label.id).Nodup ∧
    (ofParts 4 crossing crossed).instructions = [.jump 1, .branch 0x30 [2] 2, .jump 9] ∧
    (ofParts 4 crossing crossed).label? 1 = some { id := 1, name := "b", position := none } ∧
    Follows crossed (ofParts 4 crossing crossed) (.label 0) (.label 1) ∧
    Follows crossed (ofParts 4 crossing crossed) (.label 9) (.label 9) := by
  have distinct : (crossed.toList.map Label.id).Nodup := by decide
  have written : (ofParts 4 crossing crossed).instructions =
      [.jump 1, .branch 0x30 [2] 2, .jump 9] := by decide +kernel
  obtain ⟨labels, code⟩ := follows_ofParts_iff 4 crossing distinct
  rw [written] at code
  obtain ⟨first, rest⟩ := List.forall₂_cons.mp code
  obtain ⟨last, _⟩ := List.forall₂_cons.mp (List.forall₂_cons.mp rest).2
  have own := (List.forall₂_cons.mp first.2).1
  have stray := (List.forall₂_cons.mp last.2).1
  refine ⟨distinct, written, labels 1, own.mpr ?_, stray.mpr ?_⟩
  · have member : { id := 0, name := "b", position := none } ∈ crossed := by simp [crossed]
    exact not_captured_of_mem member
  · exact (not_captured_iff (by decide)).mpr (by decide)

/-- A label that is numbered anew, and gets the number of a jump that named no label. -/
def strayed : Array Label := #[{ id := 5, name := "end", position := some 1 }]

/-- **An operand that named no label may name one afterwards.** -/
theorem not_follows_ofParts_strayed :
    (strayed.toList.map Label.id).Nodup ∧ (∀ label ∈ strayed, label.id ≠ 0) ∧
    (ofParts 0 [.jump 0] strayed).references 0 = [0] ∧
    ¬ Operandwise (Follows strayed (ofParts 0 [.jump 0] strayed)) [.jump 0]
      (ofParts 0 [.jump 0] strayed).instructions := by
  have distinct : (strayed.toList.map Label.id).Nodup := by decide
  have missing : ∀ label ∈ strayed, label.id ≠ 0 := by decide
  refine ⟨distinct, missing, by decide +kernel, fun each => ?_⟩
  have own := (List.forall₂_cons.mp (List.forall₂_cons.mp each).1.2).1
  exact (follows_relocate_iff distinct (.label 0)).mp own ⟨0, rfl, by decide, missing⟩

end SceneScript.Script
