/-
**Where a listing shows labels.**

A listing as text has a line for every label, also for those behind the last instruction. The rows
of a listing stand for instructions, and a row shows the labels before its instruction; so no row
shows a label at the end of the script.

* `linesDefining_eq_one`: a label has one line in the text;
* `rowsShowing_of_placed`: a label is shown in one row, or in none if it stands at the end;
* `shown_of_label`: both for a label of a disassembled script;
* `exists_label_at_end_iff`: a disassembled script has a label at its end if a branch in the bytes
  leads to their end;
* `shown_of_disassemble`: what the two forms of a listing show of the labels of a disassembled
  script.
-/

import SceneScript.Proofs.CanonicalLabels
import SceneScript.Proofs.ReadBack
import SceneScript.Proofs.Rows

namespace SceneScript

open Layout Disassembly

namespace Listing

open Text

/-- The number of rows that show a label of a given name. -/
def rowsShowing (rows : List Row) (name : String) : Nat :=
  rows.countP fun row => row.labels.contains name

/-- The number of lines in the text of a listing that define a label of a given name. -/
def linesDefining (script : Script) (name : String) : Nat :=
  (lines (text script).toList).count (name.toList ++ [':'])

variable {script : Script} {label : Label} {place : Nat}

/-! ### Rows -/

/-- **A label is shown in the row of the instruction behind it**, and in no other; so it is shown in
no row if it stands at the end. -/
theorem rowsShowing_of_placed (distinct : script.placedNames.Nodup) (among : label ∈ script.labels)
    (position : label.position = some place) (sizes : List Nat) :
    rowsShowing (rowsOf script sizes script.instructions) label.name =
      if place < script.size then 1 else 0 := by
  have shows : ∀ item : Instruction × Nat,
      (rowAt script (offsetAt sizes item.2) item).labels.contains label.name =
        (item.2 == place) := by
    intro item
    have here := name_mem_labelsAt_iff distinct among (Option.isSome_of_eq_some position) item.2
    rw [position, Option.some.injEq, eq_comm] at here
    rw [Bool.eq_iff_iff, List.contains_iff_mem, beq_iff_eq]
    exact here
  calc rowsShowing (rowsOf script sizes script.instructions) label.name
    _ = script.instructions.zipIdx.countP fun item => item.2 == place := by
      rw [rowsShowing, rowsOf, List.countP_map]
      exact List.countP_congr fun item _ => by rw [Function.comp_apply, shows]
    _ = (List.range script.size).count place := by
      rw [List.range_eq_range', Script.size, ← List.zipIdx_map_snd, List.count, List.countP_map]
      rfl
    _ = if place < script.size then 1 else 0 := by
      rw [List.nodup_range.count]
      simp

/-! ### Lines -/

/-- A line defines a label exactly if it is the line of that label: the lines of instructions start
with blanks. -/
theorem line_eq_iff {item : Item} {name : String} (plain : PlainName name) :
    item.line = name.toList ++ [':'] ↔ item.name? = some name := by
  cases item with
  | label other =>
    rw [Item.line, List.append_left_inj, String.toList_inj, Item.name?, Option.some.injEq]
  | instruction mnemonic operands =>
    refine iff_of_false (fun same => ?_) (by simp [Item.name?])
    obtain ⟨first, rest, chars⟩ := List.exists_cons_of_ne_nil plain.toList_ne_nil
    have blank : first = ' ' := by
      rw [chars] at same
      exact (List.cons.inj same).1.symm
    have solid := (plain.plain first (by rw [chars]; exact List.mem_cons_self)).1
    rw [blank] at solid
    cases solid

/-- **A label has one line in the text.** -/
theorem linesDefining_eq_one (printable : ∀ item ∈ items script, item.Printable)
    (distinct : script.placedNames.Nodup) (plain : PlainName label.name)
    (among : label ∈ script.labels) (position : label.position = some place)
    (inside : place ≤ script.size) : linesDefining script label.name = 1 := by
  have names : linesDefining script label.name =
      ((items script).filterMap Item.name?).count label.name := by
    rw [linesDefining, lines_text printable, List.count, List.countP_map, List.count,
      List.countP_filterMap]
    refine List.countP_congr fun item _ => ?_
    rw [Function.comp_apply, beq_iff_eq, line_eq_iff plain]
    cases item.name? <;> simp
  have defined : label.name ∈ (items script).filterMap Item.name? := by
    rw [items, filterMap_name?_itemsFrom, List.mem_flatMap]
    refine ⟨place, ?_, List.mem_map_of_mem (mem_labelsAt.mpr ⟨among, position⟩)⟩
    rw [← List.range_eq_range', List.mem_range]
    exact Nat.lt_succ_of_le inside
  rw [names, List.count_eq_one_of_mem (nodup_names_items distinct) defined]

end Listing

/-! ### Labels of a disassembled script -/

section Disassembled

variable {id : UInt8} {bytes : List UInt8} {script : Script} {placed : List Placed}
  {targets : List (Option Nat)} {parts : List (List UInt8)} {label : Label}

theorem Disassembly.mem_labels_script :
    label ∈ (Disassembly.script id placed targets).labels ↔
      ∃ number place, (positions targets)[number]? = some place ∧
        synthesize place number = label := by
  rw [Array.mem_iff_getElem?]
  refine exists_congr fun number => ?_
  show (Disassembly.script id placed targets).label? number = some label ↔ _
  rw [label?_script, Option.map_eq_some_iff]

/-- The names that labels get can stand in a listing. -/
theorem Disassembly.plainName_synthesize (position number : Nat) :
    Listing.PlainName (synthesize position number).name := by
  have chars : (synthesize position number).name.toList =
      'l' :: ("abel_".toList ++ (number + 1).repr.toList) := by
    simp [synthesize, toString]
  have word : ("abel_".toList.all fun c => Listing.Plain c ∧ c ≠ ':') = true := by decide
  have plain : ∀ c ∈ (synthesize position number).name.toList, Listing.Plain c ∧ c ≠ ':' := by
    rw [chars]
    refine List.forall_mem_cons.mpr ⟨by decide, fun c among => ?_⟩
    rcases List.mem_append.mp among with own | digit
    · simpa using List.all_eq_true.mp word c own
    · exact Listing.plain_repr _ c digit
  refine ⟨fun empty => ?_, fun c among => (plain c among).1, ?_, fun last => ?_⟩
  · rw [empty] at chars
    cases chars
  · rw [chars, List.head?_cons]
    decide
  · exact (plain ':' (List.mem_of_getLast? last)).2 rfl

/-- Every label stands at a position of the script. -/
theorem Disassembly.Decoded.exists_place (decoded : Decoded bytes placed targets parts)
    (among : label ∈ (Disassembly.script id placed targets).labels) :
    ∃ place ≤ (Disassembly.script id placed targets).size, label.position = some place := by
  obtain ⟨number, place, numbered, rfl⟩ := mem_labels_script.mp among
  have inside := decoded.place_le (mem_positions.mp (List.mem_of_getElem? numbered))
  have count := congrArg List.length decoded.sizes
  rw [List.length_map, List.length_map] at count
  refine ⟨place, ?_, rfl⟩
  rw [size_script decoded.lands.length_eq, count]
  exact inside

/-- **A script has a label at its end** if a branch in the bytes leads to their end. -/
theorem Disassembly.Decoded.exists_label_at_end_iff (decoded : Decoded bytes placed targets parts) :
    (∃ label ∈ (Disassembly.script id placed targets).labels,
        label.position = some (Disassembly.script id placed targets).size) ↔
      ∃ item ∈ placed, item.destination? = some (bytes.length : Int) := by
  have stop : offsetAt (placed.map Placed.size) placed.length = bytes.length := by
    rw [← decoded.tiling.sum_sizes, ← offsetAt_length, List.length_map]
  rw [size_script decoded.lands.length_eq]
  constructor
  · rintro ⟨label, among, position⟩
    obtain ⟨number, place, numbered, rfl⟩ := mem_labels_script.mp among
    obtain rfl : place = placed.length := Option.some.inj position
    have target := mem_positions.mp (List.mem_of_getElem? numbered)
    obtain ⟨index, found⟩ := List.mem_iff_getElem?.mp target
    obtain ⟨item, listed, lands, _⟩ := decoded.exists_item found
    refine ⟨item, List.mem_of_getElem? listed, ?_⟩
    rw [lands, Option.map_some, stop]
  · rintro ⟨item, among, leads⟩
    obtain ⟨index, listed⟩ := List.mem_iff_getElem?.mp among
    obtain ⟨target, found, lands, inside⟩ := decoded.exists_target listed
    rw [leads] at lands
    obtain ⟨place, rfl, same⟩ := Option.map_eq_some_iff.mp lands.symm
    have last : place = placed.length := by
      refine offsetAt_inj decoded.tiling.size_pos (inside place rfl) (by simp) ?_
      rw [stop]
      exact Int.ofNat_inj.mp same
    have numbered := mem_positions.mpr (List.mem_of_getElem? found)
    obtain ⟨number, numbered⟩ := List.mem_iff_getElem?.mp numbered
    exact ⟨_, mem_labels_script.mpr ⟨number, place, numbered, rfl⟩, congrArg some last⟩

theorem Script.exists_decoded (accepted : disassemble id bytes = .ok script) :
    ∃ placed targets parts, Decoded bytes placed targets parts ∧
      script = Disassembly.script id placed targets := by
  obtain ⟨placed, targets, tiling, lands, same⟩ := disassemble_eq_ok_iff.mp accepted
  obtain ⟨parts, _, _, sizes⟩ := tiling.exists_parts
  exact ⟨placed, targets, parts, ⟨tiling, lands, sizes⟩, same⟩

theorem Script.plainName_of_disassemble (accepted : disassemble id bytes = .ok script) :
    ∀ label ∈ script.labels, Listing.PlainName label.name := by
  obtain ⟨placed, targets, parts, _, rfl⟩ := exists_decoded accepted
  intro label among
  obtain ⟨number, place, _, rfl⟩ := mem_labels_script.mp among
  exact plainName_synthesize place number

/-- The instructions of a disassembled script have meanings. -/
theorem Script.meaningful_of_disassemble (accepted : disassemble id bytes = .ok script) :
    Listing.Meaningful script := by
  intro instruction among
  obtain ⟨index, listed⟩ := List.mem_iff_getElem?.mp among
  obtain ⟨placed, tiling⟩ := exists_tiling accepted
  obtain ⟨_, opcode, body, place, _, denotes, _⟩ :=
    exists_placed_of_disassemble accepted tiling listed
  exact ⟨opcode, body, place, denotes⟩

/-- A branch of a script with a meaning names one of its labels. -/
theorem Script.Denotes.exists_named {instruction : Instruction} {opcode : Opcode}
    {body : List UInt8} {place : Option Nat}
    (denotes : script.Denotes instruction opcode body place) {number : Nat}
    (named : instruction.target? = some number) :
    ∃ label ∈ script.labels, script.labelName number = label.name := by
  have branches := ((Instruction.target?_eq_some_iff denotes.known).mp named).1
  rw [denotes.hasTarget_eq] at branches
  obtain ⟨target, rfl⟩ := Option.isSome_iff_exists.mp branches
  obtain ⟨own, named', position⟩ := denotes.exists_label
  obtain rfl := Option.some.inj (named.symm.trans named')
  obtain ⟨label, found, _⟩ := Option.bind_eq_some_iff.mp position
  refine ⟨label, Array.mem_of_getElem? found, ?_⟩
  rw [labelName, found]

/-- **A label of a disassembled script has one line in the text**, and it is shown in one row, or in
none if it stands at the end. -/
theorem Listing.shown_of_label (accepted : Script.disassemble id bytes = .ok script)
    (among : label ∈ script.labels) (sizes : List Nat) :
    linesDefining script label.name = 1 ∧
      rowsShowing (rowsOf script sizes script.instructions) label.name =
        if label.position = some script.size then 0 else 1 := by
  have plain := Script.plainName_of_disassemble accepted
  have distinct := Script.nodup_placedNames accepted
  have printable := printable_items (Script.meaningful_of_disassemble accepted) plain
  obtain ⟨placed, targets, parts, decoded, rfl⟩ := Script.exists_decoded accepted
  obtain ⟨place, inside, position⟩ := decoded.exists_place among
  refine ⟨linesDefining_eq_one printable distinct (plain label among) among position inside, ?_⟩
  rw [rowsShowing_of_placed distinct among position, position]
  rcases inside.lt_or_eq with before | last
  · rw [if_pos before, if_neg fun last => before.ne (Option.some.inj last)]
  · rw [if_neg last.not_lt, if_pos (congrArg some last)]

end Disassembled

namespace Listing

/-- **What the two forms of a listing show of the labels of a disassembled script.** Branches name
labels of the script, and every label has one line in the text. A label is shown in one row, but in
none if it stands at the end. So every label is shown in one row exactly if no branch in the bytes
leads to their end. -/
theorem shown_of_disassemble {id : UInt8} {bytes : List UInt8} {script : Script}
    (accepted : Script.disassemble id bytes = .ok script) :
    ∃ placed made, decodeAll bytes = .ok placed ∧ rows script = .ok made ∧
      Command.render .json script = .ok (Command.rowsText made) ∧
      (∀ instruction ∈ script.instructions, ∀ number, instruction.target? = some number →
        ∃ label ∈ script.labels, script.labelName number = label.name) ∧
      (∀ label ∈ script.labels, linesDefining script label.name = 1 ∧
        rowsShowing made label.name = if label.position = some script.size then 0 else 1) ∧
      ((∀ label ∈ script.labels, rowsShowing made label.name = 1) ↔
        ∀ item ∈ placed, item.destination? ≠ some (bytes.length : Int)) := by
  have meaningful := Script.meaningful_of_disassemble accepted
  have shown := fun label (among : label ∈ script.labels) => shown_of_label accepted among
  obtain ⟨placed, targets, parts, decoded, same⟩ := Script.exists_decoded accepted
  have listed := rows_of_sizes (Script.size?_of_disassemble accepted decoded.tiling)
  have ends : (∃ label ∈ script.labels, label.position = some script.size) ↔
      ∃ item ∈ placed, item.destination? = some (bytes.length : Int) := by
    rw [same]
    exact decoded.exists_label_at_end_iff
  refine ⟨placed, _, decodeAll_eq_ok_iff.mpr decoded.tiling, listed, Command.render_json listed,
    ?_, fun label among => shown label among _, ?_⟩
  · intro instruction among number named
    obtain ⟨_, _, _, denotes⟩ := meaningful instruction among
    exact denotes.exists_named named
  · calc (∀ label ∈ script.labels, _)
      _ ↔ ∀ label ∈ script.labels, label.position ≠ some script.size := by
        refine forall₂_congr fun label among => ?_
        rw [(shown label among _).2, ite_eq_right_iff]
        simp
      _ ↔ ¬∃ label ∈ script.labels, label.position = some script.size := by simp
      _ ↔ ∀ item ∈ placed, item.destination? ≠ some (bytes.length : Int) := by
        rw [ends]
        simp

theorem shown_of_disassemble_rondo :
    Script.disassemble 0 rondoBytes = .ok rondo ∧
      linesDefining rondo "label_1" = 1 ∧ linesDefining rondo "label_2" = 1 ∧
      ∃ made, rows rondo = .ok made ∧ rowsShowing made "label_1" = 1 ∧
        rowsShowing made "label_2" = 0 := by
  obtain ⟨_, made, _, listed, _, _, shown, _⟩ := shown_of_disassemble disassemble_rondo
  obtain ⟨line, row⟩ :=
    shown { id := 0, name := "label_1", position := some 0 } (by simp [rondo])
  obtain ⟨line', row'⟩ :=
    shown { id := 1, name := "label_2", position := some 3 } (by simp [rondo])
  exact ⟨disassemble_rondo, line, line', made, listed, row, row'⟩

/-- A jump over the last instruction, to the end. -/
def outward : Script where
  id := 0
  instructions := [{ opcode := 0x10, operands := [.label 0] }, .ret]
  labels := #[{ id := 0, name := "label_1", position := some 2 }]

theorem disassemble_outward : Script.disassemble 0 [0x10, 1, 0] = .ok outward := by
  have out : Instruction.encode { opcode := 0x10, operands := [.offset 1] } = .ok [0x10, 1] := rfl
  have ret : Instruction.ret.encode = .ok [0] := rfl
  have tiling := Tiling.cons out (Tiling.cons ret (.nil 3))
  have order : positions [some 2, none] = [2] := by simp [positions, distinct, keepNew]
  refine (Script.disassemble_of_positions tiling ?_ order).trans (by decide +kernel)
  exact .cons ⟨by decide +kernel, by decide⟩ (.cons ⟨by decide +kernel, by decide⟩ .nil)

/-- The rows of `outward`. -/
def outwardRows : List Row :=
  [{ offset := 0, labels := [], text := "JMPF label_1" },
    { offset := 2, labels := [], text := "RET" }]

/-- **A label at the end is in no row**, although a row names it and the text has its line. -/
theorem not_shown_outward :
    Script.disassemble 0 [0x10, 1, 0] = .ok outward ∧
      { id := 0, name := "label_1", position := some 2 } ∈ outward.labels ∧
      linesDefining outward "label_1" = 1 ∧ rows outward = .ok outwardRows ∧
      Command.dis (.ok [0x10, 1, 0]) {} .json false = { output := Command.rowsText outwardRows } ∧
      rowsShowing outwardRows "label_1" = 0 := by
  have listed : rows outward = .ok outwardRows := by decide +kernel
  refine ⟨disassemble_outward, by simp [outward], by decide +kernel, listed, ?_, by decide +kernel⟩
  exact Command.dis_json rfl disassemble_outward listed

end Listing

end SceneScript
