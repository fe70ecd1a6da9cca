/-
**The labels of a disassembled script.**

The branches of a script that was read from bytes name labels, one for each place to which a branch
leads. The labels are numbered in the order in which the branches first name them, and their names
follow from their numbers (`Script.Canonical`). So the bytes alone determine them.

* `pairwise_positions`: targets are numbered by the first branch that goes there;
* `Decoded.target?_script`: a branch names the label of its target;
* `Decoded.head?_references`: the first reference to a label is the first branch to its target;
* `Decoded.mem_destinations_iff`: the places to which branches lead are those of the targets;
* `ofParts_eq_self`: a script whose labels carry their places is built again from its parts;
* `canonical_of_disassemble`: the labels of a disassembled script are canonical.
-/

import SceneScript.Proofs.Format
import SceneScript.Proofs.Validation

namespace SceneScript

open Layout Disassembly

/-- The places to which the branches among written instructions lead. -/
def destinations (code : List Instruction) (parts : List (List UInt8)) : Set Int :=
  {destination | ∃ (index : Nat) (instruction : Instruction), code[index]? = some instruction ∧
    instruction.BranchesTo (startOf parts (index + 1)) destination}

namespace Script

/-- A label stands before the instruction that is written at a given place, or at the end. -/
def Marks (script : Script) (parts : List (List UInt8)) (number : Nat) (destination : Int) : Prop :=
  ∃ place ≤ parts.length, script.position? number = some place ∧ destination = startOf parts place

/-- The labels of a script that holds written instructions are canonical: there is one for each
place to which a branch leads, every branch names the one at its destination, and they are numbered
in the order in which the instructions first name them. -/
structure Canonical (script : Script) (code : List Instruction) (parts : List (List UInt8)) :
    Prop where
  numbered : ∀ {number : Nat} {label : Label}, script.labels[number]? = some label →
    label.id = number ∧ label.name = s!"label_{number + 1}"
  rebuilt : ofParts script.id script.instructions script.labels = script
  leads : ∀ number < script.labels.size,
    ∃! destination, destination ∈ destinations code parts ∧ script.Marks parts number destination
  marked : ∀ destination ∈ destinations code parts,
    ∃! number, number < script.labels.size ∧ script.Marks parts number destination
  apart : ∀ {first second place : Nat}, script.position? first = some place →
    script.position? second = some place → first = second
  named : ∀ {index : Nat} {instruction : Instruction},
    script.instructions[index]? = some instruction → instruction.isBranch = true →
    ∃ number written destination, instruction.target? = some number ∧
      number < script.labels.size ∧ code[index]? = some written ∧
      written.BranchesTo (startOf parts (index + 1)) destination ∧
      script.Marks parts number destination
  referenced : ∀ number < script.labels.size, script.references number ≠ []
  ordered : ∀ {first second : Nat}, first < second → second < script.labels.size →
    ∃ early late, (script.references first).head? = some early ∧
      (script.references second).head? = some late ∧ early < late

end Script

/-! ### The numbers of targets -/

namespace Disassembly

theorem positions_concat_none (targets : List (Option Nat)) :
    positions (targets ++ [none]) = positions targets := by
  simp [positions]

theorem positions_concat_some (targets : List (Option Nat)) (target : Nat) :
    positions (targets ++ [some target]) =
      if target ∈ positions targets then positions targets else positions targets ++ [target] := by
  rw [positions, List.filterMap_append]
  exact distinct_concat _ target

/-- **Targets are numbered by the first branch that goes there.** -/
theorem pairwise_positions (targets : List (Option Nat)) :
    (positions targets).Pairwise fun first second =>
      targets.idxOf (some first) < targets.idxOf (some second) := by
  induction targets using List.reverseRecOn with
  | nil => exact .nil
  | append_singleton targets last ih =>
    -- What was met before is found where it was.
    have before : ∀ {target}, target ∈ positions targets →
        (targets ++ [last]).idxOf (some target) = targets.idxOf (some target) := fun among =>
      List.idxOf_append_of_mem (mem_positions.mp among)
    have kept : (positions targets).Pairwise fun first second =>
        (targets ++ [last]).idxOf (some first) < (targets ++ [last]).idxOf (some second) :=
      ih.imp_of_mem fun among among' earlier => by rwa [before among, before among']
    cases last with
    | none => rwa [positions_concat_none]
    | some last =>
      rw [positions_concat_some]
      split
      · exact kept
      · next new =>
        refine List.pairwise_append.mpr ⟨kept, List.pairwise_singleton _ _, ?_⟩
        intro first among second same
        obtain rfl := List.mem_singleton.mp same
        rw [before among, List.idxOf_append_of_notMem (mt mem_positions.mpr new)]
        exact Nat.lt_add_right _ (List.idxOf_lt_length_iff.mpr (mem_positions.mp among))

theorem size_labels {id : UInt8} {placed : List Placed} {targets : List (Option Nat)} :
    (script id placed targets).labels.size = (positions targets).length := by
  simp [script]

/-- No target has two numbers. -/
theorem number_unique {targets : List (Option Nat)} {number number' place : Nat}
    (numbered : (positions targets)[number]? = some place)
    (numbered' : (positions targets)[number']? = some place) : number = number' := by
  have inside := (List.getElem?_eq_some_iff.mp numbered).1
  exact (List.getElem?_inj inside (nodup_distinct _)).mp (numbered.trans numbered'.symm)

end Disassembly

/-! ### References and parts of a script -/

namespace Script

theorem head?_references (script : Script) (number : Nat) :
    (script.references number).head? =
      script.instructions.findIdx? fun instruction => instruction.target? == some number := by
  rw [references, List.head?_map, List.head?_filter, List.findIdx?_eq_fst_find?_zipIdx]

/-- A label that carries its place is found there. -/
theorem relocate_of_numbered {labels : Array Label}
    (numbered : ∀ {number : Nat} {label : Label}, labels[number]? = some label →
      label.id = number) (operand : Operand) : relocate labels operand = operand := by
  cases operand with
  | label number =>
    rw [relocate, Operand.label.injEq]
    cases found : labels.findIdx? fun label => label.id == number with
    | none => rfl
    | some place =>
      obtain ⟨inside, same, _⟩ := Array.findIdx?_eq_some_iff_getElem.mp found
      rw [Option.getD_some, ← beq_iff_eq.mp same]
      exact (numbered (Array.getElem?_eq_getElem inside)).symm
  | scalar | offset | bytes => rfl

/-- **A script whose labels carry their places is built again from its parts.** -/
theorem ofParts_eq_self {script : Script}
    (numbered : ∀ {number : Nat} {label : Label}, script.labels[number]? = some label →
      label.id = number) :
    ofParts script.id script.instructions script.labels = script := by
  have operands : relocate script.labels = fun operand => operand :=
    funext (relocate_of_numbered numbered)
  have instructions : (script.instructions.map fun instruction =>
      { instruction with operands := instruction.operands.map (relocate script.labels) }) =
        script.instructions := by
    rw [operands]
    simp
  have labels : (script.labels.mapIdx fun place label => { label with id := place }) =
      script.labels := by
    refine Array.ext (by simp) fun number _ inside => ?_
    have same := numbered (Array.getElem?_eq_getElem inside)
    rw [Array.getElem_mapIdx]
    generalize script.labels[number] = label at same ⊢
    rw [← same]
  rw [ofParts, instructions, labels]

end Script

/-! ### Decoded instructions -/

namespace Disassembly

/-- Decoded instructions with their targets, and the parts of the bytes that they cover. -/
structure Decoded (bytes : List UInt8) (placed : List Placed) (targets : List (Option Nat))
    (parts : List (List UInt8)) : Prop where
  tiling : Tiling 0 placed bytes
  lands : List.Forall₂ (LandsAt (placed.map Placed.size)) placed targets
  sizes : placed.map Placed.size = parts.map List.length

namespace Decoded

variable {id : UInt8} {bytes : List UInt8} {placed : List Placed} {targets : List (Option Nat)}
  {parts : List (List UInt8)} {index number place : Nat} {destination : Int}

theorem exists_item (decoded : Decoded bytes placed targets parts) {target : Option Nat}
    (found : targets[index]? = some target) :
    ∃ item, placed[index]? = some item ∧ LandsAt (placed.map Placed.size) item target := by
  obtain ⟨lengths, each⟩ := Traversal.forall₂_iff_getElem?.mp decoded.lands
  have inside : index < placed.length := lengths ▸ (List.getElem?_eq_some_iff.mp found).1
  have listed := List.getElem?_eq_getElem inside
  exact ⟨_, listed, each index _ _ listed found⟩

theorem exists_target (decoded : Decoded bytes placed targets parts) {item : Placed}
    (listed : placed[index]? = some item) :
    ∃ target, targets[index]? = some target ∧ LandsAt (placed.map Placed.size) item target := by
  obtain ⟨lengths, each⟩ := Traversal.forall₂_iff_getElem?.mp decoded.lands
  have inside : index < targets.length := lengths ▸ (List.getElem?_eq_some_iff.mp listed).1
  have found := List.getElem?_eq_getElem inside
  exact ⟨_, found, each index _ _ listed found⟩

/-! #### What the instructions name -/

/-- **A branch names the label of its target**, and nothing else names a label. -/
theorem target?_script (decoded : Decoded bytes placed targets parts) {target : Option Nat}
    (found : targets[index]? = some target) :
    ∃ instruction, (script id placed targets).instructions[index]? = some instruction ∧
      instruction.isBranch = target.isSome ∧
      ∀ number, instruction.target? = some number ↔
        ∃ place, target = some place ∧ (positions targets)[number]? = some place := by
  obtain ⟨item, listed, landing⟩ := decoded.exists_item found
  obtain ⟨_, _, own⟩ := decoded.tiling.placed_at listed
  obtain ⟨opcode, body, raw, resolved, _⟩ := Instruction.exists_encode_iff.mp own
  obtain ⟨instruction, stands, denotes⟩ :=
    denotes_script decoded.lands.length_eq listed found resolved landing
  refine ⟨instruction, stands, ?_, fun number => ⟨fun named => ?_, ?_⟩⟩
  · rw [Instruction.isBranch, denotes.known]
    exact denotes.hasTarget_eq
  · have branches := ((Instruction.target?_eq_some_iff denotes.known).mp named).1
    rw [denotes.hasTarget_eq] at branches
    obtain ⟨place, rfl⟩ := Option.isSome_iff_exists.mp branches
    obtain ⟨label, named', position⟩ := denotes.exists_label
    obtain rfl := Option.some.inj (named.symm.trans named')
    exact ⟨place, rfl, position?_script number ▸ position⟩
  · rintro ⟨place, rfl, numbered⟩
    obtain ⟨label, named, position⟩ := denotes.exists_label
    rw [position?_script] at position
    rwa [number_unique numbered position]

/-- **The first reference to a label is the first branch to its target.** -/
theorem head?_references (decoded : Decoded bytes placed targets parts)
    (numbered : (positions targets)[number]? = some place) :
    ((script id placed targets).references number).head? = some (targets.idxOf (some place)) := by
  -- The instructions that name the label are those whose target is its position.
  have same : ((script id placed targets).instructions.map fun instruction =>
      instruction.target? == some number) = targets.map (· == some place) := by
    ext1 index
    rw [List.getElem?_map, List.getElem?_map]
    cases found : targets[index]? with
    | none =>
      have outside : placed.length ≤ index :=
        decoded.lands.length_eq ▸ List.getElem?_eq_none_iff.mp found
      have behind : (script id placed targets).instructions[index]? = none :=
        List.getElem?_eq_none_iff.mpr ((size_script decoded.lands.length_eq).trans_le outside)
      rw [behind]
      rfl
    | some target =>
      obtain ⟨instruction, listed, _, names⟩ := decoded.target?_script found
      rw [listed, Option.map_some, Option.map_some, Option.some.injEq, Bool.eq_iff_iff, beq_iff_eq,
        beq_iff_eq, names, numbered]
      simp
  have among : some place ∈ targets := mem_positions.mp (List.mem_of_getElem? numbered)
  have first : targets.findIdx? (· == some place) = some (targets.idxOf (some place)) :=
    List.findIdx?_eq_some_iff_findIdx_eq.mpr ⟨List.idxOf_lt_length_iff.mpr among, rfl⟩
  have search := congrArg (List.findIdx? fun named => named) same
  rw [List.findIdx?_map, List.findIdx?_map] at search
  exact (Script.head?_references _ number).trans (search.trans first)

/-! #### Places -/

/-- A branch with a target leads to the place of that target. -/
theorem branchesTo_target (decoded : Decoded bytes placed targets parts)
    (found : targets[index]? = some (some place)) :
    ∃ written, (placed.map Placed.instruction)[index]? = some written ∧
      written.BranchesTo (startOf parts (index + 1)) (startOf parts place) := by
  obtain ⟨item, listed, landing, _⟩ := decoded.exists_item found
  refine ⟨item.instruction, Tiling.getElem?_instruction listed, ?_⟩
  rw [startOf_eq, startOf_eq, ← decoded.sizes, ← decoded.tiling.next_eq listed]
  exact Placed.destination?_eq_some_iff.mp landing

/-- **The places to which branches lead are those of the targets.** -/
theorem mem_destinations_iff (decoded : Decoded bytes placed targets parts) :
    destination ∈ destinations (placed.map Placed.instruction) parts ↔
      ∃ place, some place ∈ targets ∧ destination = startOf parts place := by
  constructor
  · rintro ⟨index, instruction, listed, leads⟩
    rw [List.getElem?_map] at listed
    obtain ⟨item, located, rfl⟩ := Option.map_eq_some_iff.mp listed
    obtain ⟨target, found, landing, _⟩ := decoded.exists_target located
    rw [startOf_eq, ← decoded.sizes, ← decoded.tiling.next_eq located] at leads
    rw [Placed.destination?_eq_some_iff.mpr leads] at landing
    obtain ⟨place, rfl, same⟩ := Option.map_eq_some_iff.mp landing.symm
    refine ⟨place, List.mem_of_getElem? found, ?_⟩
    rw [← same, startOf_eq, decoded.sizes]
  · rintro ⟨place, among, rfl⟩
    obtain ⟨index, found⟩ := List.mem_iff_getElem?.mp among
    exact ⟨index, decoded.branchesTo_target found⟩

theorem place_le (decoded : Decoded bytes placed targets parts) (among : some place ∈ targets) :
    place ≤ parts.length := by
  obtain ⟨index, found⟩ := List.mem_iff_getElem?.mp among
  obtain ⟨item, _, _, inside⟩ := decoded.exists_item found
  have below := inside place rfl
  rwa [decoded.sizes, List.length_map] at below

/-- Different targets have different places. -/
theorem startOf_inj (decoded : Decoded bytes placed targets parts) {place' : Nat}
    (among : some place ∈ targets) (among' : some place' ∈ targets)
    (same : startOf parts place = startOf parts place') : place = place' := by
  have positive := decoded.tiling.size_pos
  rw [startOf_eq, startOf_eq] at same
  rw [decoded.sizes] at positive
  refine offsetAt_inj positive ?_ ?_ same
  · rw [List.length_map]
    exact decoded.place_le among
  · rw [List.length_map]
    exact decoded.place_le among'

/-- A label stands at a place exactly if it is the label of the target there. -/
theorem marks_iff (decoded : Decoded bytes placed targets parts) :
    (script id placed targets).Marks parts number destination ↔
      ∃ place, (positions targets)[number]? = some place ∧ destination = startOf parts place := by
  simp only [Script.Marks, position?_script]
  constructor
  · rintro ⟨place, _, numbered, rfl⟩
    exact ⟨place, numbered, rfl⟩
  · rintro ⟨place, numbered, rfl⟩
    have among := mem_positions.mp (List.mem_of_getElem? numbered)
    exact ⟨place, decoded.place_le among, numbered, rfl⟩

/-! #### The labels -/

/-- Every label stands at one of the places to which branches lead. -/
theorem existsUnique_destination (decoded : Decoded bytes placed targets parts)
    (numbered : (positions targets)[number]? = some place) :
    ∃! destination, destination ∈ destinations (placed.map Placed.instruction) parts ∧
      (script id placed targets).Marks parts number destination := by
  have among := mem_positions.mp (List.mem_of_getElem? numbered)
  refine ⟨startOf parts place, ⟨?_, decoded.marks_iff.mpr ⟨place, numbered, rfl⟩⟩, ?_⟩
  · exact decoded.mem_destinations_iff.mpr ⟨place, among, rfl⟩
  · rintro other ⟨_, marks⟩
    obtain ⟨place', numbered', rfl⟩ := decoded.marks_iff.mp marks
    rw [Option.some.inj (numbered'.symm.trans numbered)]

/-- Every place to which a branch leads has one label. -/
theorem existsUnique_number (decoded : Decoded bytes placed targets parts)
    (among : destination ∈ destinations (placed.map Placed.instruction) parts) :
    ∃! number, number < (script id placed targets).labels.size ∧
      (script id placed targets).Marks parts number destination := by
  obtain ⟨place, target, rfl⟩ := decoded.mem_destinations_iff.mp among
  obtain ⟨number, numbered⟩ := List.mem_iff_getElem?.mp (mem_positions.mpr target)
  refine ⟨number, ⟨?_, decoded.marks_iff.mpr ⟨place, numbered, rfl⟩⟩, ?_⟩
  · rw [size_labels]
    exact (List.getElem?_eq_some_iff.mp numbered).1
  · rintro other ⟨_, marks⟩
    obtain ⟨place', numbered', same⟩ := decoded.marks_iff.mp marks
    have target' := mem_positions.mp (List.mem_of_getElem? numbered')
    obtain rfl := decoded.startOf_inj target target' (Int.ofNat_inj.mp same)
    exact number_unique numbered' numbered

/-- **Every branch names the label at its destination.** -/
theorem exists_named (decoded : Decoded bytes placed targets parts) {instruction : Instruction}
    (listed : (script id placed targets).instructions[index]? = some instruction)
    (branches : instruction.isBranch = true) :
    ∃ number written destination, instruction.target? = some number ∧
      number < (script id placed targets).labels.size ∧
      (placed.map Placed.instruction)[index]? = some written ∧
      written.BranchesTo (startOf parts (index + 1)) destination ∧
      (script id placed targets).Marks parts number destination := by
  have inside : index < targets.length := by
    rw [← decoded.lands.length_eq, ← size_script decoded.lands.length_eq]
    exact (List.getElem?_eq_some_iff.mp listed).1
  have found := List.getElem?_eq_getElem inside
  obtain ⟨own, listed', isBranch, names⟩ := decoded.target?_script found
  obtain rfl := Option.some.inj (listed.symm.trans listed')
  rw [isBranch] at branches
  obtain ⟨place, target⟩ := Option.isSome_iff_exists.mp branches
  rw [target] at found
  have among := mem_positions.mpr (List.mem_of_getElem? found)
  obtain ⟨number, numbered⟩ := List.mem_iff_getElem?.mp among
  obtain ⟨written, stands, leads⟩ := decoded.branchesTo_target found
  refine ⟨number, written, _, (names number).mpr ⟨place, target, numbered⟩, ?_, stands, leads,
    decoded.marks_iff.mpr ⟨place, numbered, rfl⟩⟩
  rw [size_labels]
  exact (List.getElem?_eq_some_iff.mp numbered).1

/-- **The labels for the targets of decoded instructions are canonical.** -/
theorem canonical (decoded : Decoded bytes placed targets parts) :
    (script id placed targets).Canonical (placed.map Placed.instruction) parts := by
  have numbered : ∀ {number : Nat} {label : Label},
      (script id placed targets).labels[number]? = some label →
      label.id = number ∧ label.name = s!"label_{number + 1}" := by
    intro number label found
    obtain ⟨position, _, rfl⟩ := Option.map_eq_some_iff.mp ((label?_script number).symm.trans found)
    exact ⟨rfl, rfl⟩
  have listed : ∀ number < (script id placed targets).labels.size,
      ∃ place, (positions targets)[number]? = some place := by
    intro number inside
    rw [size_labels] at inside
    exact ⟨_, List.getElem?_eq_getElem inside⟩
  refine ⟨numbered, Script.ofParts_eq_self fun found => (numbered found).1, ?_,
    fun _ => decoded.existsUnique_number, ?_, decoded.exists_named, ?_, ?_⟩
  · intro number inside
    obtain ⟨place, found⟩ := listed number inside
    exact decoded.existsUnique_destination found
  · intro first second place found found'
    rw [position?_script] at found found'
    exact number_unique found found'
  · intro number inside unnamed
    obtain ⟨place, found⟩ := listed number inside
    have first : ((script id placed targets).references number).head? = _ :=
      decoded.head?_references found
    rw [unnamed] at first
    cases first
  · intro first second before inside
    obtain ⟨place, found⟩ := listed first (before.trans inside)
    obtain ⟨place', found'⟩ := listed second inside
    refine ⟨_, _, decoded.head?_references found, decoded.head?_references found', ?_⟩
    obtain ⟨below, rfl⟩ := List.getElem?_eq_some_iff.mp found
    obtain ⟨below', rfl⟩ := List.getElem?_eq_some_iff.mp found'
    exact List.pairwise_iff_getElem.mp (pairwise_positions targets) first second below below' before

end Decoded

end Disassembly

namespace Script

/-- **The labels of a disassembled script are canonical.** The bytes hold written instructions, and
there is one label for each place to which a branch among them leads. No two labels stand at one
position, and every label is named by a branch. A branch names the label at its destination. The
label with number `k` carries that number, its name is `label_` with `k + 1` behind it, and the
labels are numbered in the order in which the instructions first name them. -/
theorem canonical_of_disassemble {id : UInt8} {bytes : List UInt8} {script : Script}
    (accepted : disassemble id bytes = .ok script) :
    ∃ code parts, Format bytes code parts ∧ script.Canonical code parts := by
  obtain ⟨code, parts, format⟩ := disassemble_isOk_iff.mp ⟨script, accepted⟩
  obtain ⟨placed, targets, tiling, lands, rfl⟩ := disassemble_eq_ok_iff.mp accepted
  obtain ⟨placed', tiling', rfl, sizes, _⟩ := format.exists_tiling
  obtain rfl := tiling.unique tiling'
  exact ⟨_, parts, format, Decoded.canonical ⟨tiling, lands, sizes⟩⟩

/-- Three jumps, out to the end, back to the start and out again. -/
def shuttle : Script where
  id := 0
  instructions := [{ opcode := 0x11, operands := [.label 0] },
    { opcode := 0x11, operands := [.label 1] }, { opcode := 0x11, operands := [.label 0] }]
  labels := #[{ id := 0, name := "label_1", position := some 3 },
    { id := 1, name := "label_2", position := some 0 }]

theorem disassemble_shuttle :
    disassemble 0 [0x11, 9, 0, 0x11, 0, 0, 0x11, 9, 0] = .ok shuttle := by
  have out : Instruction.encode { opcode := 0x11, operands := [.offset 9] } = .ok [0x11, 9, 0] :=
    rfl
  have back : Instruction.encode { opcode := 0x11, operands := [.offset 0] } = .ok [0x11, 0, 0] :=
    rfl
  have tiling := Tiling.cons out (Tiling.cons back (Tiling.cons out (.nil 9)))
  have order : positions [some 3, some 0, some 3] = [3, 0] := by simp [positions, distinct, keepNew]
  refine (disassemble_of_positions tiling ?_ order).trans (by decide +kernel)
  exact .cons ⟨by decide +kernel, by decide⟩ (.cons ⟨by decide +kernel, by decide⟩
    (.cons ⟨by decide +kernel, by decide⟩ .nil))

theorem canonical_of_disassemble_shuttle :
    disassemble 0 [0x11, 9, 0, 0x11, 0, 0, 0x11, 9, 0] = .ok shuttle ∧
      ∃ code parts, Format [0x11, 9, 0, 0x11, 0, 0, 0x11, 9, 0] code parts ∧
        shuttle.Canonical code parts :=
  ⟨disassemble_shuttle, canonical_of_disassemble disassemble_shuttle⟩

end Script

end SceneScript
