/-
**Equivalent scripts, and the same edits of both.**

Equivalence compares instructions by what their labels stand for, so it says nothing good of a
script with a branch to nowhere, not even that it is equivalent to itself. Apart from that it is an
equivalence relation. An edit that puts in, takes out or moves an instruction shifts the labels of
both scripts by the same rule, so scripts that were equivalent stay so, although their labels may
have nothing in common.

* `Alike`, `sameInstruction_iff_alike`: instructions that mean the same, in the words of relations;
* `equivalent_trans`, `equivalent_self_iff`: equivalence is transitive, and which scripts are
  equivalent to themselves;
* `Alike.shift`: what means the same does so when all positions are shifted alike;
* `equivalent_apply`: the same edit of equivalent scripts is refused by both, or leaves equivalent
  scripts (`Edit.Rearranges` are the edits in question);
* `equivalent_run`: so equivalent scripts stay equivalent through every sequence of edits;
* `equivalent_congruence`: all of this together.
-/

import SceneScript.Proofs.Anchoring

namespace SceneScript

/-- The edits that put in, take out or move an instruction, and bring in no label. -/
inductive Edit.Rearranges : Edit → Prop
  | insert {index : Nat} {instruction : Instruction} :
      (∀ label, Operand.label label ∉ instruction.operands) → Rearranges (.insert index instruction)
  | remove {index : Nat} : Rearranges (.remove index)
  | move {source destination : Nat} : Rearranges (.move source destination)

namespace Script

/-- Instructions that mean the same in their scripts: equal ones with an unknown code, or those with
one canonical code whose operands mean the same. -/
inductive Alike (left right : Script) : Instruction → Instruction → Prop
  | unknown {instruction : Instruction} : instruction.opcode? = none →
      Alike left right instruction instruction
  | known {x y : Instruction} {opcode other : Opcode} : x.opcode? = some opcode →
      y.opcode? = some other → canonicalCode other = canonicalCode opcode →
      List.Forall₂ (SameOperand left right) x.operands y.operands → Alike left right x y

variable {left right left' right' first second third : Script} {a b c : Operand}
  {x y z : Instruction}

theorem sameInstruction_iff_alike :
    sameInstruction left right x y = true ↔ Alike left right x y := by
  cases known : x.opcode? with
  | some opcode =>
    rw [sameInstruction_eq_true_iff known]
    refine ⟨?_, fun alike => ?_⟩
    · rintro ⟨other, known', kin, operands⟩
      exact .known known known' kin operands
    · cases alike with
      | unknown unknown => exact absurd (known.symm.trans unknown) (Option.some_ne_none _)
      | known known' known'' kin operands =>
        rw [Option.some.inj (known.symm.trans known')]
        exact ⟨_, known'', kin, operands⟩
  | none =>
    have raw : sameInstruction left right x y = true ↔ x = y := by simp [sameInstruction, known]
    rw [raw]
    refine ⟨?_, fun alike => ?_⟩
    · rintro rfl
      exact .unknown known
    · cases alike with
      | unknown => rfl
      | known known' => exact absurd (known'.symm.trans known) (Option.some_ne_none _)

theorem equivalent_iff_alike :
    left.equivalent right = true ↔
      List.Forall₂ (Alike left right) left.instructions right.instructions := by
  rw [equivalent_iff, Traversal.forall₂_iff_getElem?]
  simp only [sameInstruction_iff_alike]
  rfl

/-! ### A partial equivalence -/

theorem SameOperand.trans (same : SameOperand first second a b)
    (same' : SameOperand second third b c) : SameOperand first third a c := by
  cases same with
  | equal noLabel =>
    cases same' with
    | label => exact absurd rfl (noLabel _)
    | equal => exact .equal noLabel
  | label position middle =>
    cases same' with
    | label middle' position' =>
      rw [middle] at middle'
      exact .label position (Option.some.inj middle' ▸ position')
    | equal noLabel => exact absurd rfl (noLabel _)

theorem Alike.trans (alike : Alike first second x y) (alike' : Alike second third y z) :
    Alike first third x z := by
  cases alike with
  | unknown unknown =>
    cases alike' with
    | unknown => exact .unknown unknown
    | known known => exact absurd (known.symm.trans unknown) (Option.some_ne_none _)
  | known known middle kin operands =>
    cases alike' with
    | unknown unknown => exact absurd (middle.symm.trans unknown) (Option.some_ne_none _)
    | known middle' known' kin' operands' =>
      rw [Option.some.inj (middle.symm.trans middle')] at kin
      exact .known known known' (kin'.trans kin)
        (Traversal.forall₂_trans operands operands' fun _ _ _ => SameOperand.trans)

/-- **Equivalence is transitive.** -/
theorem equivalent_trans (same : first.equivalent second = true)
    (same' : second.equivalent third = true) : first.equivalent third = true := by
  rw [equivalent_iff_alike] at same same' ⊢
  exact Traversal.forall₂_trans same same' fun _ _ _ => Alike.trans

/-- An operand means the same as itself if it is no label without a position. -/
theorem sameOperand_self_iff :
    SameOperand left left a a ↔ ∀ label, a = .label label → (left.position? label).isSome := by
  refine ⟨?_, fun placed => ?_⟩
  · rintro same label rfl
    cases same with
    | label position => rw [position, Option.isSome_some]
    | equal noLabel => exact absurd rfl (noLabel label)
  · by_cases named : ∃ label, a = .label label
    · obtain ⟨label, rfl⟩ := named
      obtain ⟨place, position⟩ := Option.isSome_iff_exists.mp (placed label rfl)
      exact .label position position
    · exact .equal (not_exists.mp named)

theorem alike_self_iff :
    Alike left left x x ↔ x.opcode?.isSome → ∀ label, .label label ∈ x.operands →
      (left.position? label).isSome := by
  cases known : x.opcode? with
  | none => exact iff_of_true (.unknown known) fun impossible => absurd impossible (by simp)
  | some opcode =>
    have operands : Alike left left x x ↔
        List.Forall₂ (SameOperand left left) x.operands x.operands := by
      refine ⟨fun alike => ?_, .known known known rfl⟩
      cases alike with
      | unknown unknown => exact absurd (known.symm.trans unknown) (Option.some_ne_none _)
      | known _ _ _ operands => exact operands
    rw [operands, List.forall₂_same]
    simp only [sameOperand_self_iff]
    refine ⟨fun each _ label among => each _ among label rfl, ?_⟩
    rintro each _ among label rfl
    exact each rfl label among

/-- **Which scripts are equivalent to themselves**: those without a branch to nowhere, whatever
instructions with an unknown code hold. -/
theorem equivalent_self_iff :
    left.equivalent left = true ↔
      ∀ instruction ∈ left.instructions, instruction.opcode?.isSome →
        ∀ label, .label label ∈ instruction.operands → (left.position? label).isSome := by
  rw [equivalent_iff_alike, List.forall₂_same]
  simp only [alike_self_iff]

/-! ### Shifted positions -/

/-- Positions of labels that are those of another script, shifted by a rule. -/
def Shifts (f : Nat → Nat) (script changed : Script) : Prop :=
  ∀ label, changed.position? label = (script.position? label).map f

theorem shifts_self (script : Script) (instructions : List Instruction) :
    Shifts (fun place => place) script { script with instructions } :=
  fun _ => Option.map_id'.symm

theorem shifts_map (f : Nat → Nat) (script : Script) (instructions : List Instruction) :
    Shifts f script
      { script with instructions, labels := script.labels.map fun label => label.shift f } := by
  intro label
  simp only [position?, label?, Array.getElem?_map, Option.bind_map, Option.map_bind]
  rfl

variable {f : Nat → Nat}

theorem SameOperand.shift (shifts : Shifts f left left') (shifts' : Shifts f right right')
    (same : SameOperand left right a b) : SameOperand left' right' a b := by
  cases same with
  | @label label label' place position position' =>
    have moved : left'.position? label = some (f place) := by
      rw [shifts, position, Option.map_some]
    have moved' : right'.position? label' = some (f place) := by
      rw [shifts', position', Option.map_some]
    exact .label moved moved'
  | equal noLabel => exact .equal noLabel

/-- **What means the same does so when all positions are shifted alike.** -/
theorem Alike.shift (shifts : Shifts f left left') (shifts' : Shifts f right right')
    (alike : Alike left right x y) : Alike left' right' x y := by
  cases alike with
  | unknown unknown => exact .unknown unknown
  | known known known' kin operands =>
    exact .known known known' kin (operands.imp fun _ _ => SameOperand.shift shifts shifts')

/-- Scripts are equivalent if their instructions meant the same before all positions were shifted
alike. -/
theorem equivalent_of_shifts (shifts : Shifts f left left') (shifts' : Shifts f right right')
    (each : List.Forall₂ (Alike left right) left'.instructions right'.instructions) :
    left'.equivalent right' = true :=
  equivalent_iff_alike.mpr (each.imp fun _ _ => Alike.shift shifts shifts')

/-- An instruction without labels means the same everywhere. -/
theorem alike_of_unlabelled (unlabelled : ∀ label, Operand.label label ∉ x.operands) :
    Alike left right x x := by
  cases known : x.opcode? with
  | none => exact .unknown known
  | some opcode =>
    exact .known known known rfl ((sameOperands_iff_eq unlabelled).mpr rfl)

/-! ### The same edits -/

/-- The answers to an edit of two scripts: both refuse it for one reason and are as they were, or
both accept it and are equivalent then. -/
inductive Agree (left right : Script) :
    Except EditError Edit.Reply × Script → Except EditError Edit.Reply × Script → Prop
  | refused {cause : EditError} : Agree left right (.error cause, left) (.error cause, right)
  | accepted {reply reply' : Edit.Reply} {changed changed' : Script} :
      changed.equivalent changed' = true →
      Agree left right (.ok reply, changed) (.ok reply', changed')

/-- Whether such an edit is refused, and why, depends on the number of instructions alone. -/
theorem Refuses.of_size {edit : Edit} {cause : EditError} (refuses : left.Refuses edit cause)
    (sizes : left.size = right.size) (rearranges : edit.Rearranges) : right.Refuses edit cause := by
  cases rearranges with
  | insert =>
    cases refuses with
    | insert outside =>
      rw [sizes] at outside ⊢
      exact .insert outside
  | remove =>
    cases refuses with
    | remove outside =>
      rw [sizes] at outside ⊢
      exact .remove outside
  | move =>
    cases refuses with
    | source outside =>
      rw [sizes] at outside ⊢
      exact .source outside
    | destination inside outside =>
      rw [sizes] at inside outside ⊢
      exact .destination inside outside

/-- **The same edit of equivalent scripts is refused by both, or leaves equivalent scripts.** -/
theorem equivalent_apply (same : left.equivalent right = true) {edit : Edit}
    (rearranges : edit.Rearranges) : Agree left right (left.apply edit) (right.apply edit) := by
  have sizes := (equivalent_iff.mp same).1
  have each := equivalent_iff_alike.mp same
  have found : ∀ {index : Nat}, index < left.size →
      ∃ y, right.instructions[index]? = some y :=
    fun inside => ⟨_, List.getElem?_eq_getElem (inside.trans_eq sizes)⟩
  rcases left.accepts_or_refuses edit with ⟨_, _, accepts⟩ | ⟨_, refuses⟩
  · rw [apply_of_accepts accepts]
    cases rearranges with
    | @insert index instruction unlabelled =>
      cases accepts with
      | insert inside =>
        rw [apply_of_accepts (.insert (inside.trans_eq sizes))]
        refine .accepted (equivalent_of_shifts (shifts_map _ left _) (shifts_map _ right _) ?_)
        exact Traversal.forall₂_insertIdx each (alike_of_unlabelled unlabelled) index
    | @remove index =>
      cases accepts with
      | remove listed =>
        obtain ⟨_, listed'⟩ := found (List.getElem?_eq_some_iff.mp listed).1
        rw [apply_of_accepts (.remove listed')]
        refine .accepted (equivalent_of_shifts (shifts_map _ left _) (shifts_map _ right _) ?_)
        exact Traversal.forall₂_eraseIdx each index
    | @move source destination =>
      cases accepts with
      | move listed inside =>
        obtain ⟨_, listed'⟩ := found (List.getElem?_eq_some_iff.mp listed).1
        rw [apply_of_accepts (.move listed' (inside.trans_eq sizes))]
        refine .accepted (equivalent_of_shifts (shifts_self left _) (shifts_self right _) ?_)
        have own := (Traversal.forall₂_iff_getElem?.mp each).2 source _ _ listed listed'
        exact Traversal.forall₂_insertIdx (Traversal.forall₂_eraseIdx each source) own destination
  · rw [apply_of_refuses refuses, apply_of_refuses (refuses.of_size sizes rearranges)]
    exact .refused

/-- **Equivalent scripts stay equivalent through every sequence of edits.** -/
theorem equivalent_run (same : left.equivalent right = true) {edits : List Edit}
    (rearranges : ∀ edit ∈ edits, edit.Rearranges) :
    (left.run edits).equivalent (right.run edits) = true := by
  induction edits generalizing left right with
  | nil => exact same
  | cons edit edits ih =>
    have step := equivalent_apply same (rearranges edit List.mem_cons_self)
    have kept : (left.apply edit).2.equivalent (right.apply edit).2 = true := by
      generalize left.apply edit = answer at step ⊢
      generalize right.apply edit = answer' at step ⊢
      cases step with
      | refused => exact same
      | accepted same' => exact same'
    exact ih kept fun other among => rearranges other (List.mem_cons_of_mem _ among)

/-- **Equivalence is a partial equivalence that edits respect.** It is symmetric and transitive, and
a script is equivalent to itself if none of its known instructions branches to nowhere. Where two
scripts are equivalent, an edit that brings in no label is refused by both or leaves equivalent
scripts, and so does every sequence of such edits. -/
theorem equivalent_congruence (first second third : Script) :
    first.equivalent second = second.equivalent first ∧
    (first.equivalent second = true → second.equivalent third = true →
      first.equivalent third = true) ∧
    (first.equivalent first = true ↔
      ∀ instruction ∈ first.instructions, instruction.opcode?.isSome →
        ∀ label, .label label ∈ instruction.operands → (first.position? label).isSome) ∧
    (first.equivalent second = true →
      (∀ edit : Edit, edit.Rearranges → Agree first second (first.apply edit) (second.apply edit)) ∧
      ∀ edits : List Edit, (∀ edit ∈ edits, edit.Rearranges) →
        (first.run edits).equivalent (second.run edits) = true) := by
  refine ⟨equivalent_comm first second, equivalent_trans, equivalent_self_iff, fun same => ⟨?_, ?_⟩⟩
  · exact fun _ => equivalent_apply same
  · exact fun _ => equivalent_run same

/-- A jump to the end, behind an instruction with an unknown code. -/
def onward : Script where
  id := 1
  instructions := [{ opcode := 0x0C, operands := [.label 9] }, .jump 1]
  labels := #[{ id := 0, name := "unused", position := none },
    { id := 1, name := "end", position := some 2 }]

/-- The same, with another label and a long jump backward. -/
def detour : Script where
  id := 2
  instructions := [{ opcode := 0x0C, operands := [.label 9] },
    { opcode := 0x13, operands := [.label 0] }]
  labels := #[{ id := 4, name := "out", position := some 2 }]

theorem equivalent_congruence_detour :
    onward.equivalent detour = true ∧ detour.equivalent onward = true ∧
    onward.equivalent onward = true ∧
    (onward.run [.insert 1 .nop, .move 2 0, .remove 1]).equivalent
      (detour.run [.insert 1 .nop, .move 2 0, .remove 1]) = true := by
  have same : onward.equivalent detour = true := by decide +kernel
  obtain ⟨turned, joined, _, edits⟩ := equivalent_congruence onward detour onward
  have same' := turned.symm.trans same
  refine ⟨same, same', joined same same', (edits same).2 _ ?_⟩
  simp only [List.forall_mem_cons]
  exact ⟨.insert fun _ => List.not_mem_nil, .move, .remove, fun _ => by simp⟩

end Script

end SceneScript
