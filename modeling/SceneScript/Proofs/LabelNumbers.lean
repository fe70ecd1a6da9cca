/-
**Labels keep their numbers.**

Branches name a label by its place among the labels of their script, and so do the calls that edit
it. The labels of a script carry these places, and stand inside of it or at its end (`WellPlaced`),
wherever the script comes from and whatever edits it has seen; a label that is there stays there.

* `Continues`: how labels can differ later: the old ones are where they were, under the numbers that
  they had, and new ones are behind them;
* `continues_apply`: an edit continues the labels;
* `wellPlaced_of_disassemble`, `wellPlaced_of_parse`: the labels of scripts that are read;
* `run_wellPlaced`: all of this for every sequence of edits, and what is refused changes nothing.
-/

import SceneScript.Proofs.Drafting
import SceneScript.Proofs.Editing
import SceneScript.Proofs.Shortest

namespace SceneScript

/-- Labels that carry their places, and stand at most at the end of `size` instructions. -/
structure WellPlaced (labels : Array Label) (size : Nat) : Prop where
  id_eq : ∀ {place : Nat} {label : Label}, labels[place]? = some label → label.id = place
  inside : ∀ {place : Nat} {label : Label}, labels[place]? = some label →
    ∀ position ∈ label.position, position ≤ size

theorem wellPlaced_empty (size : Nat) : WellPlaced #[] size :=
  ⟨fun absent => by simp at absent, fun absent => by simp at absent⟩

/-- Labels that continue others: those are where they were, with the numbers that they had and names
as given, and new labels are behind them. Positions that were inside stay inside. -/
structure Continues (rename : Nat → String → String) (size size' : Nat)
    (labels labels' : Array Label) : Prop where
  kept : ∀ {place : Nat} {label : Label}, labels[place]? = some label →
    ∃ later, labels'[place]? = some later ∧ later.id = label.id ∧
      later.name = rename place label.name ∧
      ((∀ position ∈ label.position, position ≤ size) →
        ∀ position ∈ later.position, position ≤ size')
  added : ∀ {place : Nat} {label : Label}, labels'[place]? = some label → labels.size ≤ place →
    label.id = place ∧ ∀ position ∈ label.position, position ≤ size'

section Labels

variable {rename : Nat → String → String} {size size' : Nat} {labels labels' : Array Label}

/-- Labels that are changed one by one continue the old ones. -/
theorem Continues.of_changed (change : Nat → Label → Label)
    (changed : ∀ place : Nat, labels'[place]? = labels[place]?.map (change place))
    (ids : ∀ (place : Nat) (label : Label), (change place label).id = label.id)
    (names : ∀ (place : Nat) (label : Label),
      (change place label).name = rename place label.name)
    (inside : ∀ (place : Nat) (label : Label), (∀ position ∈ label.position, position ≤ size) →
      ∀ position ∈ (change place label).position, position ≤ size') :
    Continues rename size size' labels labels' := by
  refine ⟨fun {place label} found => ?_, fun {place label} found behind => ?_⟩
  · refine ⟨change place label, ?_, ids place label, names place label, inside place label⟩
    rw [changed, found, Option.map_some]
  · rw [changed, Array.getElem?_eq_none behind] at found
    cases found

/-- Labels with one more at their end continue the old ones. -/
theorem Continues.push {label : Label} (number : label.id = labels.size)
    (inside : ∀ position ∈ label.position, position ≤ size) :
    Continues (fun _ name => name) size size labels (labels.push label) := by
  refine ⟨fun {place own} found => ?_, fun {place own} found behind => ?_⟩
  · have before := (Array.getElem?_eq_some_iff.mp found).1
    rw [Array.getElem?_push, if_neg (Nat.ne_of_lt before)]
    exact ⟨own, found, rfl, rfl, id⟩
  · rw [Array.getElem?_push] at found
    by_cases last : place = labels.size
    · rw [if_pos last] at found
      cases found
      exact ⟨number.trans last.symm, inside⟩
    · rw [if_neg last, Array.getElem?_eq_none behind] at found
      cases found

/-- Labels that are left alone continue themselves, if the script is not shorter. -/
theorem Continues.same (longer : size ≤ size')
    (names : ∀ {place : Nat} {label : Label}, labels[place]? = some label →
      rename place label.name = label.name) :
    Continues rename size size' labels labels := by
  refine ⟨fun {place label} found => ?_, fun {place label} found behind => ?_⟩
  · exact ⟨label, found, rfl, (names found).symm,
      fun inside position own => (inside position own).trans longer⟩
  · rw [Array.getElem?_eq_none behind] at found
    cases found

/-- Labels whose positions are shifted continue the old ones. -/
theorem Continues.shift {shift : Nat → Nat} (inside : ∀ place ≤ size, shift place ≤ size')
    (labels : Array Label) :
    Continues (fun _ name => name) size size' labels
      (labels.map fun label => label.shift shift) := by
  refine .of_changed (fun _ label => label.shift shift) (fun _ => Array.getElem?_map)
    (fun _ _ => rfl) (fun _ _ => rfl) fun _ label before position own => ?_
  obtain ⟨place, placed, rfl⟩ := Option.map_eq_some_iff.mp own
  exact inside place (before place placed)

/-- Labels of which one is changed continue the old ones. -/
theorem Continues.modify (own : Nat) (change : Label → Label)
    (ids : ∀ label : Label, (change label).id = label.id)
    (names : ∀ (place : Nat) (label : Label),
      (if own = place then change label else label).name = rename place label.name)
    (inside : ∀ label : Label, (∀ position ∈ label.position, position ≤ size) →
      ∀ position ∈ (change label).position, position ≤ size) :
    Continues rename size size labels (labels.modify own change) := by
  refine .of_changed (fun place label => if own = place then change label else label)
    (fun place => ?_) (fun place label => ?_) names fun place label before => ?_
  · rw [Array.getElem?_modify]
    split
    · rfl
    · exact Option.map_id'.symm
  · split
    · exact ids label
    · rfl
  · split
    · exact inside label before
    · exact before

theorem Continues.trans {rename' : Nat → String → String} {size'' : Nat} {labels'' : Array Label}
    (first : Continues rename size size' labels labels')
    (second : Continues rename' size' size'' labels' labels'') :
    Continues (fun place name => rename' place (rename place name)) size size''
      labels labels'' := by
  refine ⟨fun {place label} found => ?_, fun {place label} found behind => ?_⟩
  · obtain ⟨between, found', number, name, inside⟩ := first.kept found
    obtain ⟨later, found'', number', name', inside'⟩ := second.kept found'
    exact ⟨later, found'', number'.trans number, name'.trans (congrArg _ name),
      fun before => inside' (inside before)⟩
  · by_cases early : place < labels'.size
    · have own := Array.getElem?_eq_getElem early
      obtain ⟨later, found', number, _, inside⟩ := second.kept own
      obtain rfl := Option.some.inj (found.symm.trans found')
      obtain ⟨number', inside'⟩ := first.added own behind
      exact ⟨number.trans number', inside inside'⟩
    · exact second.added found (Nat.le_of_not_lt early)

/-- **Labels that continue well placed ones are well placed.** -/
theorem Continues.wellPlaced (continues : Continues rename size size' labels labels')
    (placed : WellPlaced labels size) : WellPlaced labels' size' := by
  have each : ∀ {place : Nat} {label : Label}, labels'[place]? = some label →
      label.id = place ∧ ∀ position ∈ label.position, position ≤ size' := by
    intro place label found
    by_cases before : place < labels.size
    · have old := Array.getElem?_eq_getElem before
      obtain ⟨later, found', number, _, inside⟩ := continues.kept old
      obtain rfl := Option.some.inj (found.symm.trans found')
      exact ⟨number.trans (placed.id_eq old), inside (placed.inside old)⟩
    · exact continues.added found (Nat.le_of_not_lt before)
  exact ⟨fun found => (each found).1, fun found => (each found).2⟩

end Labels

/-! ### Edits -/

/-- The name that a label has after an edit. -/
def Edit.rename (edit : Edit) (label : Nat) (name : String) : String :=
  match edit with
  | .renameLabel own new => if own = label then new else name
  | _ => name

namespace Script

variable {script changed : Script} {edit : Edit} {reply : Edit.Reply}

theorem raised_le {index place size : Nat} (inside : place ≤ size) :
    raised index place ≤ size + 1 := by
  unfold raised
  split
  · split <;> omega
  · omega

theorem lowered_le {index place size : Nat} (inside : place ≤ size) (removed : index < size) :
    lowered index place ≤ size - 1 := by
  unfold lowered
  split <;> omega

/-- **An accepted edit continues the labels of its script.** -/
theorem Accepts.continues (accepts : script.Accepts edit reply changed) :
    Continues edit.rename script.size changed.size script.labels changed.labels := by
  cases accepts with
  | push =>
    refine .same ?_ fun _ => rfl
    show script.instructions.length ≤ (script.instructions ++ [_]).length
    rw [List.length_append]
    exact Nat.le_add_right _ _
  | insert inside =>
    refine .shift (fun place before => ?_) script.labels
    show raised _ place ≤ (script.instructions.insertIdx _ _).length
    rw [List.length_insertIdx_of_le_length inside]
    exact raised_le before
  | remove found =>
    have removed := (List.getElem?_eq_some_iff.mp found).1
    refine .shift (fun place before => ?_) script.labels
    show lowered _ place ≤ (script.instructions.eraseIdx _).length
    rw [List.length_eraseIdx_of_lt removed]
    exact lowered_le before removed
  | @move source destination instruction found inside =>
    have taken := (List.getElem?_eq_some_iff.mp found).1
    have room : destination ≤ (script.instructions.eraseIdx source).length := by
      rw [List.length_eraseIdx_of_lt taken]
      exact Nat.le_sub_one_of_lt inside
    refine .same (Nat.le_of_eq ?_) fun _ => rfl
    show script.instructions.length = ((script.instructions.eraseIdx source).insertIdx _ _).length
    rw [List.length_insertIdx_of_le_length room, List.length_eraseIdx_add_one taken]
  | replace inside => exact .same (Nat.le_of_eq List.length_set.symm) fun _ => rfl
  | missing outside => exact .same le_rfl fun _ => rfl
  | retarget known found linked => exact .same (Nat.le_of_eq List.length_set.symm) fun _ => rfl
  | addLabel inside => exact .push rfl inside
  | mark => exact .push rfl fun position own => (Option.some.inj own).ge
  | @placeLabel own position known inside =>
    refine .modify own (fun label => { label with position }) (fun _ => rfl)
      (fun place label => ?_) (fun _ _ => inside)
    exact (apply_ite Label.name _ _ _).trans (ite_self _)
  | @renameLabel own name known =>
    refine .modify own (fun label => { label with name }) (fun _ => rfl)
      (fun place label => ?_) (fun _ before => before)
    exact apply_ite Label.name _ _ _
  | renumber => exact .same le_rfl fun _ => rfl

/-- What is refused leaves the labels: a name that is given to no label is not given. -/
theorem Refuses.continues {cause : EditError} (refuses : script.Refuses edit cause) :
    Continues edit.rename script.size script.size script.labels script.labels := by
  refine .same le_rfl fun {place label} found => ?_
  have inside := (Array.getElem?_eq_some_iff.mp found).1
  cases refuses with
  | @renamed own name unknown => exact if_neg (Nat.ne_of_gt (Nat.lt_of_lt_of_le inside unknown))
  | _ => rfl

/-- **An edit continues the labels of its script**, whether it is accepted or not. -/
theorem continues_apply (script : Script) (edit : Edit) :
    Continues edit.rename script.size (script.apply edit).2.size script.labels
      (script.apply edit).2.labels := by
  rcases script.accepts_or_refuses edit with ⟨_, _, accepts⟩ | ⟨_, refuses⟩
  · rw [apply_of_accepts accepts]
    exact accepts.continues
  · rw [apply_of_refuses refuses]
    exact refuses.continues

/-- **A sequence of edits continues the labels of its script.** -/
theorem continues_run (script : Script) (edits : List Edit) :
    Continues (fun place name => edits.foldl (fun name edit => edit.rename place name) name)
      script.size (script.run edits).size script.labels (script.run edits).labels := by
  induction edits generalizing script with
  | nil => exact .same le_rfl fun _ => rfl
  | cons edit edits ih => exact (continues_apply script edit).trans (ih (script.apply edit).2)

/-! ### Scripts that are read -/

/-- **The labels of a disassembled script are well placed.** -/
theorem wellPlaced_of_disassemble {id : UInt8} {bytes : List UInt8} {decoded : Script}
    (accepted : disassemble id bytes = .ok decoded) :
    WellPlaced decoded.labels decoded.size := by
  obtain ⟨placed, targets, tiling, lands, rfl⟩ := disassemble_eq_ok_iff.mp accepted
  have each : ∀ {place : Nat} {label : Label},
      (Disassembly.script id placed targets).labels[place]? = some label →
      ∃ position ∈ Disassembly.positions targets,
        label = Disassembly.synthesize position place := by
    intro place label found
    have listed := (Disassembly.label?_script place).symm.trans found
    obtain ⟨position, member, rfl⟩ := Option.map_eq_some_iff.mp listed
    exact ⟨position, List.mem_of_getElem? member, rfl⟩
  refine ⟨fun found => ?_, fun found position own => ?_⟩
  · obtain ⟨position, _, rfl⟩ := each found
    rfl
  · obtain ⟨target, member, rfl⟩ := each found
    obtain rfl := Option.some.inj own
    obtain ⟨aimed, among, same⟩ := List.mem_filterMap.mp (Disassembly.mem_distinct.mp member)
    obtain ⟨index, listed⟩ := List.mem_iff_getElem?.mp among
    obtain ⟨count, landings⟩ := Traversal.forall₂_iff_getElem?.mp lands
    have inside : index < placed.length := count ▸ (List.getElem?_eq_some_iff.mp listed).1
    have landing := landings index _ aimed (List.getElem?_eq_getElem inside) listed
    rw [Disassembly.size_script count, ← List.length_map Placed.size]
    exact landing.2 target same

end Script

namespace Listing

variable {labels labels' : Array Label} {size : Nat}

theorem wellPlaced_reference (placed : WellPlaced labels size) (name : String) :
    WellPlaced (reference labels name).2 size := by
  unfold reference
  split
  · exact placed
  · exact (Continues.push rfl fun position absent => by cases absent).wellPlaced placed

theorem wellPlaced_parseOperand {shape : Shape} {text : String} {operand : Operand}
    (accepted : parseOperand labels shape text = .ok (operand, labels'))
    (placed : WellPlaced labels size) : WellPlaced labels' size := by
  by_cases branches : shape.isBranch = true
  · rw [parseOperand, if_pos branches] at accepted
    cases accepted
    exact wellPlaced_reference placed text
  · rcases parseOperand_of_value (Bool.eq_false_iff.mpr branches) text with
      ⟨value, read⟩ | ⟨cause, failed⟩
    · rw [read labels] at accepted
      cases accepted
      exact placed
    · rw [failed labels] at accepted
      cases accepted

theorem wellPlaced_parseOperands {pairs : List (Shape × String)} {operands : List Operand}
    (accepted : parseOperands labels pairs = .ok (operands, labels'))
    (placed : WellPlaced labels size) : WellPlaced labels' size := by
  induction pairs generalizing labels operands with
  | nil =>
    cases accepted
    exact placed
  | cons pair rest ih =>
    obtain ⟨⟨operand, between⟩, first, accepted⟩ := Traversal.bind_eq_ok_iff.mp accepted
    obtain ⟨⟨others, final⟩, later, same⟩ := Traversal.bind_eq_ok_iff.mp accepted
    cases same
    exact ih later (wellPlaced_parseOperand first placed)

namespace Draft

/-- A draft that counts its instructions, and whose labels are well placed. -/
structure Sound (draft : Draft) : Prop where
  size_eq : draft.size = draft.code.length
  placed : WellPlaced draft.labels draft.size

variable {draft next : Draft}

theorem Sound.define (sound : draft.Sound) (name : String) : (draft.define name).Sound := by
  refine ⟨by rw [size_define, code_define, sound.size_eq], ?_⟩
  rw [size_define]
  have end_le : ∀ position ∈ some draft.size, position ≤ draft.size :=
    fun position own => (Option.some.inj own).ge
  rcases labels_define draft name with ⟨_, place, _, modified⟩ | ⟨_, pushed⟩
  · have continued : Continues (fun _ name => name) draft.size draft.size draft.labels
        (draft.labels.modify place (putAt draft.size)) :=
      .modify place (putAt draft.size) (fun _ => rfl)
        (fun _ _ => (apply_ite Label.name _ _ _).trans (ite_self _)) fun _ _ => end_le
    rw [modified]
    exact continued.wellPlaced sound.placed
  · rw [pushed]
    exact (Continues.push rfl end_le).wellPlaced sound.placed

theorem Sound.add {item : Item} (added : draft.add item = .ok next) (sound : draft.Sound) :
    next.Sound := by
  cases item with
  | label name =>
    cases added
    exact sound.define name
  | instruction mnemonic texts =>
    obtain ⟨_, _, _, _, _, accepted, rfl⟩ := add_instruction_eq added
    have placed := wellPlaced_parseOperands accepted sound.placed
    refine ⟨congrArg Nat.succ sound.size_eq, placed.id_eq, fun found position own => ?_⟩
    exact (placed.inside found position own).trans (Nat.le_succ _)

end Draft

/-- **The labels of a script that is read from a listing are well placed.** -/
theorem wellPlaced_of_parse {id : UInt8} {text : String} {parsed : Script}
    (accepted : parse id text = .ok parsed) : WellPlaced parsed.labels parsed.size := by
  obtain ⟨draft, added, rfl⟩ := foldlM_items_of_parse accepted
  have sound : draft.Sound :=
    Traversal.foldlM_keeps Draft.Sound (fun _ step sound => sound.add step) added
      ⟨rfl, wellPlaced_empty 0⟩
  show WellPlaced draft.labels draft.code.reverse.length
  rw [List.length_reverse, ← sound.size_eq]
  exact sound.placed

end Listing

/-! ### Every sequence of edits -/

namespace Script

/-- A script that no edit has changed: an empty one, or one that was read from bytes or from a
listing. -/
inductive Fresh : Script → Prop
  | empty (id : UInt8) : Fresh { id }
  | disassembled {id : UInt8} {bytes : List UInt8} {script : Script} :
      disassemble id bytes = .ok script → Fresh script
  | parsed {id : UInt8} {text : String} {script : Script} :
      Listing.parse id text = .ok script → Fresh script

theorem Fresh.wellPlaced {script : Script} (fresh : script.Fresh) :
    WellPlaced script.labels script.size := by
  cases fresh with
  | empty id => exact wellPlaced_empty 0
  | disassembled accepted => exact wellPlaced_of_disassemble accepted
  | parsed accepted => exact Listing.wellPlaced_of_parse accepted

theorem run_append (script : Script) (edits later : List Edit) :
    script.run (edits ++ later) = (script.run edits).run later :=
  List.foldl_append

/-- **Labels keep their numbers through all edits.** Whatever was done to a script, its labels carry
their places and stand inside of it or at its end. Whatever is done later, a label that is there
stays at its place, under its number and with the last name that it is given. An edit is refused for
a reason of its own, and leaves the script as it was then. -/
theorem run_wellPlaced {start : Script} (fresh : start.Fresh) (edits : List Edit) :
    WellPlaced (start.run edits).labels (start.run edits).size ∧
    (∀ (later : List Edit) (place : Nat) (label : Label),
      (start.run edits).labels[place]? = some label →
      ∃ kept, (start.run (edits ++ later)).labels[place]? = some kept ∧ kept.id = place ∧
        kept.name = later.foldl (fun name edit => edit.rename place name) label.name) ∧
    ∀ (edit : Edit) (cause : EditError),
      (((start.run edits).apply edit).1 = .error cause ↔ (start.run edits).Refuses edit cause) ∧
      (((start.run edits).apply edit).1 = .error cause →
        ((start.run edits).apply edit).2 = start.run edits) := by
  have placed := (continues_run start edits).wellPlaced fresh.wellPlaced
  refine ⟨placed, fun later place label found => ?_, fun edit cause => ⟨apply_refused_iff, ?_⟩⟩
  · rw [run_append]
    obtain ⟨kept, found', number, name, _⟩ := (continues_run (start.run edits) later).kept found
    exact ⟨kept, found', number.trans (placed.id_eq found), name⟩
  · intro refused
    rw [apply_of_refuses (apply_refused_iff.mp refused)]

/-- Edits around the jumps of `hopLong`: a pause is put in between them and the one before them is
taken out, a label is added, and one is renamed. Two of the calls are refused. -/
def hopEdits : List Edit :=
  [.insert 2 .nop, .remove 0, .addLabel "late" (some 9), .mark "end", .renameLabel 1 "out",
    .placeLabel 7 none]

theorem run_wellPlaced_hop :
    hopLong.Fresh ∧
    hopLong.run hopEdits = {
      id := 0
      instructions := [{ opcode := 0x13, operands := [.label 0] }, .nop,
        { opcode := 0x11, operands := [.label 1] }]
      labels := #[{ id := 0, name := "label_1", position := some 0 },
        { id := 1, name := "out", position := some 3 },
        { id := 2, name := "end", position := some 3 }] } ∧
    WellPlaced (hopLong.run hopEdits).labels (hopLong.run hopEdits).size ∧
    ((hopLong.run hopEdits).apply (.retarget 1 2)).1 = .error (.notABranch 1) ∧
    ((hopLong.run hopEdits).apply (.retarget 1 2)).2 = hopLong.run hopEdits := by
  have fresh : hopLong.Fresh := .disassembled disassemble_hop
  have refused : ((hopLong.run hopEdits).apply (.retarget 1 2)).1 = .error (.notABranch 1) := by
    decide +kernel
  obtain ⟨placed, _, calls⟩ := run_wellPlaced fresh hopEdits
  exact ⟨fresh, by decide +kernel, placed, refused, (calls _ _).2 refused⟩

end Script

end SceneScript
