/-
**Labels stay on their code.**

A label marks the instruction that it stands before, or the end. When an instruction is put in or
taken out, the others have new indices, and a label that stood before one of them stands before it
still. Only the labels at the edited index have a choice: they go to what is put in there, and to
what moves up there. So an instruction that was put in can be taken out again, and one that was
moved can be moved back, and nothing is left of the edit. A label at the last position is the
exception: it loses its code when something is put in before it.

* `remove_eq_ok_iff`, `move_of_found`: what taking out and moving an instruction leave;
* `Widens`: two scripts, one of which has an instruction more;
* `widens_of_insert`, `widens_of_remove`: what is put in is the only new instruction, and what is
  taken out the only missing one;
* `label?_of_insert`, `label?_of_remove`: where the labels are then;
* `remove_of_insert`, `move_of_move`: edits that are undone;
* `labels_follow_edits`: all of this together.
-/

import SceneScript.Proofs.Insertion

namespace SceneScript

/-! ### Shifted labels -/

theorem Label.shift_congr {label : Label} {f g : Nat → Nat}
    (same : ∀ place ∈ label.position, f place = g place) : label.shift f = label.shift g := by
  unfold Label.shift
  rw [Option.map_congr same]

theorem Label.shift_shift (label : Label) (f g : Nat → Nat) :
    (label.shift f).shift g = label.shift fun place => g (f place) := by
  unfold Label.shift
  rw [Option.map_map]
  rfl

theorem Label.shift_self (label : Label) : label.shift (fun place => place) = label := by
  unfold Label.shift
  rw [Option.map_id']

namespace Script

variable {script shorter longer moved : Script} {index source destination : Nat}
  {extra removed : Instruction}

/-- Positions come back when an instruction is put in and taken out again. -/
theorem lowered_openedAt (index place : Nat) : lowered index (openedAt index place) = place := by
  unfold lowered openedAt
  by_cases behind : index < place
  · rw [if_pos behind, if_pos (Nat.lt_succ_of_lt behind), Nat.add_sub_cancel]
  · rw [if_neg behind, if_neg behind]

/-- A label that is not at the place of a new instruction moves with the one behind it. -/
theorem openedAt_eq (index place : Nat) :
    openedAt index place = if place = index then index else displaced index place := by
  unfold openedAt displaced
  split <;> split <;> grind

/-- A label that is not before an instruction that is taken out stays before its own. -/
theorem displaced_lowered (index place : Nat) :
    displaced index (lowered index place) = if place = index then index + 1 else place := by
  unfold lowered displaced
  split <;> split <;> grind

/-! ### Taking out and moving -/

theorem remove_eq_ok_iff :
    script.remove index = (.ok removed, shorter) ↔
      script.instructions[index]? = some removed ∧ shorter = { script with
        instructions := script.instructions.eraseIdx index
        labels := script.labels.map fun label => label.shift (lowered index) } := by
  rw [remove]
  cases script.instructions[index]? with
  | none => simp
  | some found =>
    rw [Prod.mk.injEq, Except.ok.injEq, Option.some.injEq]
    exact and_congr_right fun _ => eq_comm

theorem move_of_found {instruction : Instruction}
    (found : script.instructions[source]? = some instruction) (inside : destination < script.size) :
    script.move source destination =
      (.ok (), { script with
        instructions :=
          (script.instructions.eraseIdx source).insertIdx destination instruction }) := by
  rw [move, found]
  exact if_pos inside

/-! ### One instruction more or less -/

/-- A script and a longer one, which has one more instruction: it stands at `index`, and the others
are where `displaced` says, in their order and with the end behind them. -/
structure Widens (script : Script) (index : Nat) (extra : Instruction) (longer : Script) :
    Prop where
  size : longer.size = script.size + 1
  extra : longer.instructions[index]? = some extra
  others : ∀ other, longer.instructions[displaced index other]? = script.instructions[other]?
  finish : displaced index script.size = longer.size

theorem displaced_of_le {other : Nat} (behind : index ≤ other) :
    displaced index other = other + 1 :=
  if_neg (Nat.not_lt.mpr behind)

theorem widens_of_insert (inserted : script.insert index extra = (.ok (), longer)) :
    script.Widens index extra longer where
  size := size_of_insert inserted
  extra := getElem?_index_of_insert inserted
  others := getElem?_displaced_of_insert inserted
  finish := by
    rw [displaced_of_le (insert_eq_ok_iff.mp inserted).1, size_of_insert inserted]

/-- Labels that are not at the last position move up with their code. -/
theorem shift_raised {label : Label} (apart : label.position ≠ some lastPosition) (index : Nat) :
    label.shift (raised index) = label.shift (openedAt index) :=
  Label.shift_congr fun _ placed => raised_eq_openedAt apart placed index

/-- **A label stands before the same instruction as before**, and before the one that was put in if
it stood there. -/
theorem label?_of_insert (inserted : script.insert index extra = (.ok (), longer))
    (apart : ∀ label ∈ script.labels, label.position ≠ some lastPosition) (id : Nat) :
    longer.label? id = (script.label? id).map fun label => label.shift fun place =>
      if place = index then index else displaced index place := by
  obtain ⟨_, rfl⟩ := insert_eq_ok_iff.mp inserted
  rw [← funext (openedAt_eq index)]
  refine Array.getElem?_map.trans (Option.map_congr fun label found => ?_)
  exact shift_raised (apart label (Array.mem_of_getElem? found)) index

theorem widens_of_remove (taken : script.remove index = (.ok removed, shorter)) :
    shorter.Widens index removed script := by
  obtain ⟨found, rfl⟩ := remove_eq_ok_iff.mp taken
  have inside := (List.getElem?_eq_some_iff.mp found).1
  have size : script.size = (script.instructions.eraseIdx index).length + 1 := by
    rw [List.length_eraseIdx_of_lt inside]
    exact (Nat.sub_add_cancel (Nat.one_le_of_lt inside)).symm
  refine ⟨size, found, fun other => ?_, ?_⟩
  · exact (getElem?_eraseIdx_displaced script.instructions index other).symm
  · rw [size]
    exact displaced_of_le (Nat.le_of_lt_succ (inside.trans_eq size))

/-- **A label stands before the same instruction as before**, and before the next one if its own was
taken out. -/
theorem label?_of_remove (taken : script.remove index = (.ok removed, shorter)) (id : Nat) :
    ((shorter.label? id).map fun label => label.shift (displaced index)) =
      (script.label? id).map fun label => label.shift fun place =>
        if place = index then index + 1 else place := by
  obtain ⟨_, rfl⟩ := remove_eq_ok_iff.mp taken
  show ((script.labels.map fun label => label.shift (lowered index))[id]?.map _) = _
  rw [Array.getElem?_map, Option.map_map, label?]
  congr 1
  funext label
  show (label.shift (lowered index)).shift (displaced index) = _
  rw [Label.shift_shift, funext (displaced_lowered index)]

/-! ### Edits that are undone -/

/-- **An instruction that was put in can be taken out**, and the script is what it was. -/
theorem remove_of_insert (inserted : script.insert index extra = (.ok (), longer))
    (apart : ∀ label ∈ script.labels, label.position ≠ some lastPosition) :
    longer.remove index = (.ok extra, script) := by
  refine remove_eq_ok_iff.mpr ⟨getElem?_index_of_insert inserted, ?_⟩
  obtain ⟨_, rfl⟩ := insert_eq_ok_iff.mp inserted
  have labels : (script.labels.map fun label => label.shift (raised index)).map
      (fun label => label.shift (lowered index)) = script.labels := by
    rw [Array.map_map]
    refine (Array.map_congr_left fun label among => ?_).trans (Array.map_id script.labels)
    show (label.shift (raised index)).shift (lowered index) = label
    rw [shift_raised (apart label among), Label.shift_shift, funext (lowered_openedAt index),
      Label.shift_self]
  simp only [List.eraseIdx_insertIdx_self, labels]

/-- **An instruction that was moved can be moved back**, and the script is what it was. -/
theorem move_of_move (inside : source < script.size) (inside' : destination < script.size) :
    ∃ moved, script.move source destination = (.ok (), moved) ∧
      moved.move destination source = (.ok (), script) := by
  have found := List.getElem?_eq_getElem inside
  have rest : (script.instructions.eraseIdx source).length + 1 = script.size := by
    rw [List.length_eraseIdx_of_lt inside]
    exact Nat.sub_add_cancel (Nat.one_le_of_lt inside)
  have fits : destination ≤ (script.instructions.eraseIdx source).length := by omega
  have again : ((script.instructions.eraseIdx source).insertIdx destination
      script.instructions[source])[destination]? = some script.instructions[source] :=
    List.getElem?_insertIdx_self.trans (if_pos fits)
  have size : ((script.instructions.eraseIdx source).insertIdx destination
      script.instructions[source]).length = script.size := by
    rw [List.length_insertIdx_of_le_length fits, rest]
  refine ⟨_, move_of_found found inside', (move_of_found again ?_).trans ?_⟩
  · exact inside.trans_eq size.symm
  · simp only [List.eraseIdx_insertIdx_self, List.insertIdx_eraseIdx_getElem inside]

/-! ### All edits -/

/-- **Labels stay on their code.** Whatever is put in or taken out, a label stands before the same
instruction as before, or at the end as before; a label at the edited index stands before what was
put in there, or before what was behind the instruction that was taken out. Taking out what was put
in gives the script back, and so does moving an instruction back. Where an instruction is put in,
the labels are at most at the end, and that is before the last position: a script never has as many
instructions as there are positions. -/
theorem labels_follow_edits (script : Script) :
    (∀ (index : Nat) (extra : Instruction), index ≤ script.size → script.size < lastPosition →
      (∀ label ∈ script.labels, ∀ place ∈ label.position, place ≤ script.size) →
      ∃ longer, script.insert index extra = (.ok (), longer) ∧ script.Widens index extra longer ∧
        (∀ id, longer.label? id = (script.label? id).map fun label => label.shift fun place =>
          if place = index then index else displaced index place) ∧
        longer.remove index = (.ok extra, script)) ∧
    (∀ index < script.size,
      ∃ removed shorter, script.remove index = (.ok removed, shorter) ∧
        shorter.Widens index removed script ∧
        ∀ id, ((shorter.label? id).map fun label => label.shift (displaced index)) =
          (script.label? id).map fun label => label.shift fun place =>
            if place = index then index + 1 else place) ∧
    ∀ source < script.size, ∀ destination < script.size,
      ∃ moved, script.move source destination = (.ok (), moved) ∧
        moved.move destination source = (.ok (), script) := by
  refine ⟨fun index extra inside small placed => ?_, fun index inside => ?_,
    fun source inside destination => ?_⟩
  · have apart : ∀ label ∈ script.labels, label.position ≠ some lastPosition :=
      fun label among last => Nat.not_le.mpr small (placed label among lastPosition last)
    obtain ⟨longer, inserted⟩ : ∃ longer, script.insert index extra = (.ok (), longer) :=
      ⟨_, insert_eq_ok_iff.mpr ⟨inside, rfl⟩⟩
    exact ⟨longer, inserted, widens_of_insert inserted, label?_of_insert inserted apart,
      remove_of_insert inserted apart⟩
  · obtain ⟨removed, shorter, taken⟩ : ∃ removed shorter,
        script.remove index = (.ok removed, shorter) :=
      ⟨_, _, remove_eq_ok_iff.mpr ⟨List.getElem?_eq_getElem inside, rfl⟩⟩
    exact ⟨removed, shorter, taken, widens_of_remove taken, label?_of_remove taken⟩
  · exact move_of_move inside

/-- A jump to the end between two other instructions. Two labels stand before the jump, one behind
it, and one nowhere. -/
def fork : Script where
  id := 0
  instructions := [.nop, .jump 3, .ret]
  labels := #[{ id := 0, name := "a", position := some 1 },
    { id := 1, name := "b", position := some 1 }, { id := 2, name := "c", position := some 2 },
    { id := 3, name := "end", position := some 3 }, { id := 4, name := "d", position := none }]

theorem labels_follow_edits_fork :
    1 < fork.size ∧ fork.size < lastPosition ∧
    (∀ label ∈ fork.labels, ∀ place ∈ label.position, place ≤ fork.size) ∧
    (∃ longer, fork.insert 1 .ret = (.ok (), longer) ∧
      longer.labels.toList.map Label.position = [some 1, some 1, some 3, some 4, none] ∧
      longer.remove 1 = (.ok .ret, fork)) ∧
    (∃ shorter, fork.remove 1 = (.ok (.jump 3), shorter) ∧
      shorter.labels.toList.map Label.position = [some 1, some 1, some 1, some 2, none] ∧
      shorter.Widens 1 (.jump 3) fork) ∧
    ∃ moved, fork.move 0 2 = (.ok (), moved) ∧ moved.move 2 0 = (.ok (), fork) := by
  have inside : 1 < fork.size := by decide
  have small : fork.size < lastPosition := by decide
  have placed : ∀ label ∈ fork.labels, ∀ place ∈ label.position, place ≤ fork.size := by decide
  obtain ⟨inserts, removes, moves⟩ := labels_follow_edits fork
  obtain ⟨longer, inserted, _, _, restored⟩ := inserts 1 .ret (Nat.le_of_lt inside) small placed
  obtain ⟨removed, shorter, taken, widens, _⟩ := removes 1 inside
  obtain rfl : removed = .jump 3 := Option.some.inj widens.extra.symm
  refine ⟨inside, small, placed, ⟨longer, inserted, ?_, restored⟩, ⟨shorter, taken, ?_, widens⟩,
    moves 0 (by decide) 2 (by decide)⟩
  · rw [(insert_eq_ok_iff.mp inserted).2]
    decide +kernel
  · rw [(remove_eq_ok_iff.mp taken).2]
    decide +kernel

end Script

end SceneScript
