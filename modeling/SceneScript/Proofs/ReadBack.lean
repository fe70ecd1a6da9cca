/-
**Listings read back.**

A script is printed as its items and read by adding these items to a draft. So what is read has the
same instructions, and each name stands for the label that it stood for, at the same position. The
numbers of the labels may differ: they are given in the order in which names turn up.

* `definedAt?_itemsFrom`, `nodup_names_items`: the labels of a script are defined where they stand,
  and each of them once;
* `printable_items`, `exists_draft`: the items of a script can be printed and added to a draft, if
  its instructions have meanings and the names of its labels are plain;
* `exists_parse_text`: a listing reads as a script with the same opcodes that is equivalent;
* `assemble_parse_text`: what was printed and read is assembled like the script itself.
-/

import SceneScript.Proofs.Drafting
import SceneScript.Proofs.PrintedWords
import SceneScript.Proofs.SameCode

namespace SceneScript.Listing

open Script (SameOperand)

/-- A name that a label can have in a listing: it is one word, and its line is neither a comment nor
empty. -/
structure PlainName (name : String) : Prop where
  nonempty : name ≠ ""
  plain : ∀ c ∈ name.toList, Plain c
  noComment : name.toList.head? ≠ some '#'
  noColon : name.toList.getLast? ≠ some ':'

theorem plainName_iff {name : String} :
    PlainName name ↔ name ≠ "" ∧ (∀ c ∈ name.toList, Plain c) ∧ name.toList.head? ≠ some '#' ∧
      name.toList.getLast? ≠ some ':' := by
  constructor
  · intro plain
    exact ⟨plain.nonempty, plain.plain, plain.noComment, plain.noColon⟩
  · rintro ⟨nonempty, plain, noComment, noColon⟩
    exact ⟨nonempty, plain, noComment, noColon⟩

instance (name : String) : Decidable (PlainName name) :=
  have : Decidable (∀ c ∈ name.toList, Plain c) := List.decidableBAll Plain name.toList
  decidable_of_iff _ plainName_iff.symm

theorem PlainName.toList_ne_nil {name : String} (plain : PlainName name) : name.toList ≠ [] := by
  intro empty
  exact plain.nonempty (String.toList_eq_nil_iff.mp empty)

variable {script : Script}

/-! ### Where labels are defined -/

theorem definedAt?_append_labels (name : String) (labels : List Label) (rest : List Item) :
    definedAt? name (labels.map (fun label => .label label.name) ++ rest) =
      if name ∈ labels.map Label.name then some 0 else definedAt? name rest := by
  induction labels with
  | nil => rfl
  | cons label labels ih =>
    rw [List.map_cons, List.cons_append, definedAt?, ih]
    by_cases same : name = label.name <;> simp [same]

theorem definedAt?_instruction (script : Script) (instruction : Instruction) (name : String)
    (rest : List Item) :
    definedAt? name (instructionItem script instruction :: rest) =
      (definedAt? name rest).map (· + 1) := by
  unfold instructionItem
  split <;> rfl

/-- Two labels that have a position and one name are the same label. -/
theorem eq_of_name_eq (distinct : script.placedNames.Nodup) {label other : Label}
    (among : label ∈ script.labels) (among' : other ∈ script.labels)
    (placed : label.position.isSome) (placed' : other.position.isSome)
    (same : label.name = other.name) : label = other :=
  List.inj_on_of_nodup_map distinct (List.mem_filter.mpr ⟨among.val, placed⟩)
    (List.mem_filter.mpr ⟨among'.val, placed'⟩) same

theorem mem_labelsAt {label : Label} {index : Nat} :
    label ∈ script.labelsAt index ↔ label ∈ script.labels ∧ label.position = some index := by
  rw [Script.labelsAt, List.mem_filter, beq_iff_eq, Array.mem_toList_iff]

/-- The name of a label is among the names at an index if the label stands there. -/
theorem name_mem_labelsAt_iff (distinct : script.placedNames.Nodup) {label : Label}
    (among : label ∈ script.labels) (placed : label.position.isSome) (index : Nat) :
    label.name ∈ (script.labelsAt index).map Label.name ↔ label.position = some index := by
  constructor
  · intro listed
    obtain ⟨other, found, same⟩ := List.mem_map.mp listed
    obtain ⟨among', position⟩ := mem_labelsAt.mp found
    have placed' := Option.isSome_of_eq_some position
    obtain rfl := eq_of_name_eq distinct among' among placed' placed same
    exact position
  · intro position
    exact List.mem_map_of_mem (mem_labelsAt.mpr ⟨among, position⟩)

/-- **The labels of a script are defined where they stand.** -/
theorem definedAt?_itemsFrom (distinct : script.placedNames.Nodup) {label : Label}
    (among : label ∈ script.labels) {index count : Nat} {instructions : List Instruction}
    (position : label.position = some (index + count)) (inside : count ≤ instructions.length) :
    definedAt? label.name (itemsFrom script index instructions) = some count := by
  have here := name_mem_labelsAt_iff distinct among (Option.isSome_of_eq_some position)
  -- The labels at `index` come first: the label is one of them, or it is defined behind the first
  -- instruction, since no other label has its name.
  induction instructions generalizing index count with
  | nil =>
    obtain rfl : count = 0 := Nat.le_zero.mp inside
    rw [itemsFrom, labelItems, ← List.append_nil (List.map _ _), definedAt?_append_labels,
      if_pos ((here index).mpr position)]
  | cons instruction rest ih =>
    rw [itemsFrom, labelItems, definedAt?_append_labels, definedAt?_instruction]
    cases count with
    | zero => rw [if_pos ((here index).mpr position)]
    | succ count =>
      have elsewhere : label.name ∉ (script.labelsAt index).map Label.name := by
        rw [here, position]
        simp
      have later : label.position = some (index + 1 + count) := by
        rw [position, Nat.add_right_comm, Nat.add_assoc]
      rw [if_neg elsewhere, ih later (Nat.le_of_succ_le_succ inside)]
      rfl

theorem filterMap_name?_itemsFrom (script : Script) (index : Nat)
    (instructions : List Instruction) :
    (itemsFrom script index instructions).filterMap Item.name? =
      (List.range' index (instructions.length + 1)).flatMap fun place =>
        (script.labelsAt place).map Label.name := by
  have labels : ∀ index, (labelItems script index).filterMap Item.name? =
      (script.labelsAt index).map Label.name := by
    intro index
    rw [labelItems, List.filterMap_map]
    exact congrFun List.filterMap_eq_map (script.labelsAt index)
  have unnamed : ∀ instruction, (instructionItem script instruction).name? = none := by
    intro instruction
    unfold instructionItem
    split <;> rfl
  induction instructions generalizing index with
  | nil => rw [itemsFrom, labels, List.length_nil, List.range'_one, List.flatMap_singleton]
  | cons instruction rest ih =>
    rw [itemsFrom, List.filterMap_append, labels, List.filterMap_cons_none (unnamed instruction)]
    exact congrArg ((script.labelsAt index).map Label.name ++ ·) (ih (index + 1))

/-- **The labels of a script are defined once each.** -/
theorem nodup_names_items (distinct : script.placedNames.Nodup) :
    ((items script).filterMap Item.name?).Nodup := by
  rw [items, filterMap_name?_itemsFrom, List.nodup_flatMap]
  constructor
  · intro place _
    refine List.Nodup.sublist (List.Sublist.map Label.name ?_) distinct
    rw [Script.labelsAt]
    refine List.monotone_filter_right _ fun label position => ?_
    rw [beq_iff_eq.mp position]
    rfl
  · refine List.Pairwise.imp (fun {place place'} apart => ?_) List.nodup_range'
    intro name own own'
    obtain ⟨label, found, rfl⟩ := List.mem_map.mp own
    obtain ⟨among, position⟩ := mem_labelsAt.mp found
    have position' :=
      (name_mem_labelsAt_iff distinct among (Option.isSome_of_eq_some position) place').mp own'
    rw [position] at position'
    exact apart (Option.some.inj position')

theorem filter_isInstruction_itemsFrom (script : Script) (index : Nat)
    (instructions : List Instruction) :
    (itemsFrom script index instructions).filter Item.isInstruction =
      instructions.map (instructionItem script) := by
  have labels : ∀ index, (labelItems script index).filter Item.isInstruction = [] := by
    intro index
    rw [labelItems, List.filter_map, List.map_eq_nil_iff]
    exact List.filter_eq_nil_iff.mpr fun _ _ => Bool.false_ne_true
  have own : ∀ instruction, (instructionItem script instruction).isInstruction = true := by
    intro instruction
    unfold instructionItem
    split <;> rfl
  induction instructions generalizing index with
  | nil => exact labels index
  | cons instruction rest ih =>
    rw [itemsFrom, List.filter_append, labels, List.nil_append,
      List.filter_cons_of_pos (own instruction), ih, List.map_cons]

theorem mem_itemsFrom {index : Nat} {instructions : List Instruction} {item : Item}
    (among : item ∈ itemsFrom script index instructions) :
    (∃ label ∈ script.labels, item = .label label.name) ∨
      ∃ instruction ∈ instructions, item = instructionItem script instruction := by
  have labels : ∀ index, item ∈ labelItems script index →
      ∃ label ∈ script.labels, item = .label label.name := by
    intro index listed
    obtain ⟨label, found, rfl⟩ := List.mem_map.mp listed
    exact ⟨label, (mem_labelsAt.mp found).1, rfl⟩
  induction instructions generalizing index with
  | nil => exact .inl (labels index among)
  | cons instruction rest ih =>
    rcases List.mem_append.mp among with here | later
    · exact .inl (labels index here)
    · rcases List.mem_cons.mp later with own | later
      · exact .inr ⟨instruction, List.mem_cons_self, own⟩
      · rcases ih later with label | ⟨other, listed, same⟩
        · exact .inl label
        · exact .inr ⟨other, List.mem_cons_of_mem _ listed, same⟩

/-! ### Operands -/

/-- An operand of an instruction that has a meaning: a value, or a label with a position. -/
inductive MeaningfulOperand (script : Script) (shape : Shape) : Operand → Prop
  | value {operand : Operand} {bytes : List UInt8} : shape.isBranch = false →
      operand.encode shape = .ok bytes → MeaningfulOperand script shape operand
  | label {id place : Nat} {label : Label} : shape.isBranch = true →
      script.label? id = some label → label.position = some place → place ≤ script.size →
      MeaningfulOperand script shape (.label id)

theorem operands_of_written {shapes : List Shape} {operands : List Operand} {bytes : List UInt8}
    (values : ∀ shape ∈ shapes, shape.isBranch = false) (written : Written shapes operands bytes) :
    List.Forall₂ (MeaningfulOperand script) shapes operands := by
  induction written with
  | nil => exact .nil
  | @cons shape _ _ _ _ _ encoded _ ih =>
    obtain ⟨own, others⟩ := List.forall_mem_cons.mp values
    exact .cons (.value own encoded) (ih others)

/-- **The operands of an instruction that has a meaning are meaningful.** -/
theorem operands_of_denotes {instruction : Instruction} {opcode : Opcode} {body : List UInt8}
    {place : Option Nat} (denotes : script.Denotes instruction opcode body place) :
    List.Forall₂ (MeaningfulOperand script) opcode.shapes instruction.operands := by
  have row := denotes.member
  have values : ∀ shape ∈ opcode.leading, shape.isBranch = false :=
    fun _ => Opcode.not_isBranch_of_mem_leading
  cases denotes with
  | plain _ still written =>
    rw [Opcode.shapes_of_plain row (Flow.hasTarget_eq_false_iff.mp still)]
    exact operands_of_written values written
  | @branch lead id place _ branches written operands position inside =>
    obtain ⟨width, known⟩ := Option.isSome_iff_exists.mp branches
    obtain ⟨label, found, placed⟩ := Option.bind_eq_some_iff.mp position
    have isBranch : width.shape.isBranch = true := by cases width <;> rfl
    rw [Opcode.shapes_of_branch row known, operands]
    exact List.rel_append (operands_of_written values written)
      (.cons (.label isBranch found placed inside) .nil)

theorem operandText_label {id : Nat} {label : Label} (found : script.label? id = some label)
    (shape : Shape) : operandText script shape (.label id) = label.name := by
  rw [operandText, Script.labelName, found]

/-- A meaningful operand is printed neatly. -/
theorem MeaningfulOperand.neat (names : ∀ label ∈ script.labels, PlainName label.name)
    {shape : Shape} {operand : Operand} (means : MeaningfulOperand script shape operand) :
    Neat (operandText script shape operand).toList := by
  cases means with
  | value values encoded => exact (prints_operandText script values encoded).neat
  | label _ found _ _ =>
    have plain := names _ (Array.mem_of_getElem? found)
    rw [operandText_label found]
    exact neat_of_plain plain.toList_ne_nil plain.plain plain.noColon

theorem MeaningfulOperand.exists_parseOperand {shape : Shape} {operand : Operand}
    (means : MeaningfulOperand script shape operand) (labels : Array Label) :
    ∃ result, parseOperand labels shape (operandText script shape operand) = .ok result := by
  cases means with
  | value values encoded =>
    exact ⟨_, (prints_operandText script values encoded).parseOperand_eq values labels⟩
  | label branches =>
    rw [parseOperand, branches, if_pos rfl]
    exact ⟨_, rfl⟩

theorem exists_parseOperands {shapes : List Shape} {operands : List Operand}
    (means : List.Forall₂ (MeaningfulOperand script) shapes operands) (labels : Array Label) :
    ∃ result, parseOperands labels (shapes.zip (printedOperands script shapes operands)) =
      .ok result := by
  induction means generalizing labels with
  | nil => exact ⟨_, rfl⟩
  | cons first _ ih =>
    obtain ⟨⟨operand, between⟩, own⟩ := first.exists_parseOperand labels
    obtain ⟨⟨others, final⟩, later⟩ := ih between
    refine ⟨(operand :: others, final), ?_⟩
    exact Traversal.bind_eq_ok_iff.mpr ⟨_, own, Traversal.bind_eq_ok_iff.mpr ⟨_, later, rfl⟩⟩

/-- The script that was read places every label where it stood. -/
def KeepsPlaces (script parsed : Script) : Prop :=
  ∀ label ∈ script.labels, ∀ place ≤ script.size, label.position = some place →
    namedPosition? parsed.labels label.name = some place

variable {parsed : Script}

/-- An operand that is printed and read means the same. -/
theorem MeaningfulOperand.sameOperand (keeps : KeepsPlaces script parsed) {shape : Shape}
    {operand operand' : Operand} (means : MeaningfulOperand script shape operand)
    (read : ReadAs parsed.labels shape (operandText script shape operand) operand') :
    SameOperand script parsed operand operand' := by
  cases means with
  | value values encoded =>
    cases read with
    | label branches =>
      rw [values] at branches
      cases branches
    | value _ read =>
      have own := (prints_operandText script values encoded).parseOperand_eq values #[]
      rw [read] at own
      cases own
      refine .equal ?_
      rintro id rfl
      exact Operand.encode_label _ _ _ encoded
  | label branches found position inside =>
    cases read with
    | value values =>
      rw [values] at branches
      cases branches
    | label _ known =>
      have there := keeps _ (Array.mem_of_getElem? found) _ inside position
      rw [operandText_label found] at known
      rw [namedPosition?, known, Option.bind_some] at there
      refine .label ?_ there
      rw [Script.position?, found]
      exact position

/-- **Operands that are printed and read mean the same.** -/
theorem sameOperands_of_readAs (keeps : KeepsPlaces script parsed) {shapes : List Shape}
    {operands operands' : List Operand}
    (means : List.Forall₂ (MeaningfulOperand script) shapes operands)
    (reads : List.Forall₂ (fun pair operand => ReadAs parsed.labels pair.1 pair.2 operand)
      (shapes.zip (printedOperands script shapes operands)) operands') :
    List.Forall₂ (SameOperand script parsed) operands operands' := by
  induction means generalizing operands' with
  | nil =>
    cases reads
    exact .nil
  | cons first _ ih =>
    cases reads with
    | cons read others => exact .cons (first.sameOperand keeps read) (ih others)

/-! ### Instructions -/

/-- A script whose instructions all have a meaning. -/
def Meaningful (script : Script) : Prop :=
  ∀ instruction ∈ script.instructions, ∃ opcode body place,
    script.Denotes instruction opcode body place

theorem instructionItem_of_known {instruction : Instruction} {opcode : Opcode}
    (known : instruction.opcode? = some opcode) :
    instructionItem script instruction = .instruction opcode.mnemonic
      (printedOperands script opcode.shapes instruction.operands) := by
  rw [instructionItem, known]

/-- **The items of a script can be printed.** -/
theorem printable_items (meaningful : Meaningful script)
    (names : ∀ label ∈ script.labels, PlainName label.name) :
    ∀ item ∈ items script, item.Printable := by
  intro item among
  rcases mem_itemsFrom among with ⟨label, listed, rfl⟩ | ⟨instruction, listed, rfl⟩
  · have plain := names label listed
    exact ⟨plain.toList_ne_nil, plain.plain, plain.noComment⟩
  · obtain ⟨opcode, body, place, denotes⟩ := meaningful instruction listed
    obtain ⟨nonempty, plain⟩ := Opcode.plain_mnemonic denotes.member
    rw [instructionItem_of_known denotes.known]
    refine ⟨nonempty, fun c own => (plain c own).1, fun first => ?_, fun last => ?_, ?_⟩
    · exact (plain '#' (List.mem_of_mem_head? first)).2.1 rfl
    · exact (plain ':' (List.mem_of_getLast? last)).2.2 rfl
    · intro text printed
      obtain ⟨⟨shape, operand⟩, paired, rfl⟩ := List.mem_map.mp printed
      have means := (List.forall₂_iff_zip.mp (operands_of_denotes denotes)).2 paired
      exact means.neat names

theorem length_printedOperands {shapes : List Shape} {operands : List Operand}
    (count : shapes.length = operands.length) :
    (printedOperands script shapes operands).length = shapes.length := by
  rw [printedOperands, List.length_map, List.length_zip, count, Nat.min_self]

/-- **The items of a script can be added to a draft.** -/
theorem exists_draft (meaningful : Meaningful script) :
    ∃ draft, (items script).foldlM Draft.add {} = .ok draft := by
  refine Draft.exists_foldlM (fun item among draft => ?_) {}
  rcases mem_itemsFrom among with ⟨label, _, rfl⟩ | ⟨instruction, listed, rfl⟩
  · exact ⟨_, rfl⟩
  · obtain ⟨opcode, body, place, denotes⟩ := meaningful instruction listed
    have means := operands_of_denotes denotes
    obtain ⟨⟨operands, labels⟩, accepted⟩ := exists_parseOperands means draft.labels
    rw [instructionItem_of_known denotes.known, Draft.add,
      Opcode.ofMnemonic?_mnemonic denotes.member]
    simp only [length_printedOperands means.length_eq, if_true]
    exact ⟨_, Traversal.bind_eq_ok_iff.mpr ⟨_, accepted, rfl⟩⟩

/-- **An instruction that is printed and read has the same code and means the same.** -/
theorem sameInstruction_of_readsAs (keeps : KeepsPlaces script parsed) {x y : Instruction}
    {opcode : Opcode} {body : List UInt8} {place : Option Nat}
    (denotes : script.Denotes x opcode body place)
    (reads : (instructionItem script x).ReadsAs parsed.labels y) :
    y.opcode = x.opcode ∧ Script.sameInstruction script parsed x y = true := by
  rw [instructionItem_of_known denotes.known] at reads
  cases reads with
  | intro known _ operands =>
    rw [Opcode.ofMnemonic?_mnemonic denotes.member] at known
    cases known
    refine ⟨Opcode.code_of_ofCode? denotes.known, ?_⟩
    refine (Script.sameInstruction_eq_true_iff denotes.known).mpr ⟨opcode, ?_, rfl, ?_⟩
    · exact Opcode.ofCode?_code denotes.member
    · exact sameOperands_of_readAs keeps (operands_of_denotes denotes) operands

/-! ### Scripts -/

/-- The draft to which the items of a script are added places every label where it stood. -/
theorem keepsPlaces_of_result (distinct : script.placedNames.Nodup) {draft : Draft}
    (result : Draft.Result {} draft (items script)) (id : UInt8) :
    KeepsPlaces script (draft.script id) := by
  intro label among place inside position
  have fresh : namedPosition? #[] label.name = none :=
    namedPosition?_of_unnamed (by simp [labelPlace?])
  have defined : definedAt? label.name (items script) = some place :=
    definedAt?_itemsFrom distinct among (by rw [position, Nat.zero_add]) inside
  have own := result.position label.name
  rw [defined, Option.map_some, fresh, Option.none_or, Nat.zero_add] at own
  exact own

/-- **A listing reads as a script with the same opcodes that is equivalent**, and no name is defined
twice in it. -/
theorem exists_parse_text (meaningful : Meaningful script) (distinct : script.placedNames.Nodup)
    (names : ∀ label ∈ script.labels, PlainName label.name) (id : UInt8) :
    ∃ parsed, parse id (text script) = .ok parsed ∧
      parsed.instructions.map Instruction.opcode = script.instructions.map Instruction.opcode ∧
      script.equivalent parsed = true ∧ parsed.placedNames.Nodup := by
  obtain ⟨draft, added⟩ := exists_draft meaningful
  have result := Draft.result_of_foldlM added
  obtain ⟨code, split, reads⟩ := result.code
  -- The draft was empty at first, so all of its code comes from the items of the script.
  have instructions : (draft.script id).instructions = code := split
  rw [items, filter_isInstruction_itemsFrom, List.forall₂_map_left_iff,
    Traversal.forall₂_iff_getElem?] at reads
  obtain ⟨count, reads⟩ := reads
  have each : ∀ (index : Nat) (x y : Instruction), script.instructions[index]? = some x →
      code[index]? = some y →
      y.opcode = x.opcode ∧ Script.sameInstruction script (draft.script id) x y = true := by
    intro index x y listed listed'
    obtain ⟨opcode, body, place, denotes⟩ := meaningful x (List.mem_of_getElem? listed)
    exact sameInstruction_of_readsAs (keepsPlaces_of_result distinct result id) denotes
      (reads index x y listed listed')
  refine ⟨draft.script id, parse_text (printable_items meaningful names) added id, ?_, ?_, ?_⟩
  · have codes : List.Forall₂ (· = ·) (script.instructions.map Instruction.opcode)
        (code.map Instruction.opcode) := by
      rw [List.forall₂_map_left_iff, List.forall₂_map_right_iff]
      exact Traversal.forall₂_iff_getElem?.mpr ⟨count, fun index x y listed listed' =>
        (each index x y listed listed').1.symm⟩
    rw [List.forall₂_eq_eq_eq] at codes
    rw [instructions, codes]
  · refine Script.equivalent_iff.mpr ⟨?_, fun index x y listed listed' => ?_⟩
    · rw [Script.size, Script.size, instructions, count]
    · rw [instructions] at listed'
      exact (each index x y listed listed').2
  · refine result.defined.nodup_iff.mpr ?_
    show (_ ++ []).Nodup
    rw [List.append_nil]
    exact nodup_names_items distinct

/-- The instructions of a script that nothing is wrong with have a meaning. -/
theorem meaningful_of_findings {config : AssemblyConfig} (nothing : script.findings config = []) :
    Meaningful script := by
  intro instruction listed
  obtain ⟨index, found⟩ := List.mem_iff_getElem?.mp listed
  obtain ⟨opcode, body, place, denotes, _⟩ :=
    Slot.denotes_of_prepare ((Script.findings_eq_nil_iff.mp nothing).2 index instruction found)
  exact ⟨opcode, body, place, denotes⟩

/-- **What was printed and read is assembled like the script itself**: it has the same opcodes and
is equivalent, whatever plain names the labels have and whichever numbers they get. -/
theorem assemble_parse_text {config : AssemblyConfig} {origin : Origin} {assembly : Assembly}
    (assembled : script.assemble origin config = .ok assembly)
    (names : ∀ label ∈ script.labels, PlainName label.name) (id : UInt8) (origin' : Origin) :
    ∃ parsed, parse id (text script) = .ok parsed ∧
      parsed.instructions.map Instruction.opcode = script.instructions.map Instruction.opcode ∧
      script.equivalent parsed = true ∧ parsed.assemble origin' config = .ok assembly := by
  have built := Script.assemble_eq_ok_iff.mp assembled
  obtain ⟨_, _, nothing, _⟩ := Script.build_eq_ok_iff.mp built
  obtain ⟨distinct, _⟩ := Script.findings_eq_nil_iff.mp nothing
  obtain ⟨parsed, read, opcodes, same, names'⟩ :=
    exists_parse_text (meaningful_of_findings nothing) distinct names id
  refine ⟨parsed, read, opcodes, same, Script.assemble_eq_ok_iff.mpr ?_⟩
  refine Script.build_of_equivalent built same ?_ ?_
  · exact Script.findings_eq_nil_of_equivalent same opcodes nothing names'
  · rw [← (Script.equivalent_iff.mp same).1]
    exact Script.passes_le_passLimit built

/-- A branch over a payload and a negative number to the end, and a jump back. One label has no
position, two have the same, and their names would be taken for other things elsewhere in a line. -/
def tour : Script where
  id := 0
  instructions := [.branch 0x30 [0x200] 3, .scalars 0x60 [0x1F, -300, 7, 0x102, 64],
    { opcode := 0x28, operands := [.bytes [0x0B, 0xFF]] },
    { opcode := 0x12, operands := [.label 0] }]
  labels := #[{ id := 4, name := "0x10", position := some 1 },
    { id := 4, name := "NOP:#", position := some 1 }, { id := 0, name := "[", position := none },
    { id := 9, name := "-end", position := some 4 }]

theorem build_tour : tour.build { flipJumps := false, maxPasses := some 1 } = .ok {
    bytes := [0x30, 0, 2, 16, 0x60, 0x1F, 0, 0xD4, 0xFE, 7, 0, 2, 1, 64, 0x28, 4, 0x0B, 0xFF, 0x12,
      16]
    instructions := [{ opcode := 0x30, operands := [.scalar 0x200, .offset 16] },
      .scalars 0x60 [0x1F, -300, 7, 0x102, 64],
      { opcode := 0x28, operands := [.bytes [0x0B, 0xFF]] },
      { opcode := 0x12, operands := [.offset 16] }]
    offsets := #[0, 4, 14, 18, 20]
    passes := 1 } :=
  Script.build_of_eval (by decide +kernel) (by decide +kernel) (by decide +kernel)

/-- The jump back may not be turned, and only one pass is allowed. -/
theorem assemble_parse_text_tour :
    (∀ label ∈ tour.labels, PlainName label.name) ∧
      ∃ assembly,
        tour.assemble { script := 0 } { flipJumps := false, maxPasses := some 1 } = .ok assembly ∧
        ∃ parsed, parse 3 (text tour) = .ok parsed ∧
          parsed.instructions.map Instruction.opcode = tour.instructions.map Instruction.opcode ∧
          tour.equivalent parsed = true ∧
          parsed.assemble { script := 3 } { flipJumps := false, maxPasses := some 1 } =
            .ok assembly := by
  have names : ∀ label ∈ tour.labels, PlainName label.name := by decide +kernel
  have assembled : tour.assemble { script := 0 } { flipJumps := false, maxPasses := some 1 } =
      .ok _ := Script.assemble_eq_ok_iff.mpr build_tour
  exact ⟨names, _, assembled, assemble_parse_text assembled names 3 { script := 3 }⟩

end SceneScript.Listing
