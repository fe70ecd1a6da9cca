/-
**The lines that are printed.**

A listing is the items of a script (`items`), one line each (`Item.line`): the labels before an
instruction, then the instruction. A line reads as its item if nothing in it can be taken for
something else (`Item.Printable`), so that reading a listing adds the items of the script to a draft
one by one.

* `getElem?_labelTable`: the table of labels holds the labels at each position;
* `toList_text`: a listing is the lines of the items, a line feed behind each;
* `parseLine_line`: the line of a printable item reads as the item;
* `lines_text`: a listing of printable items has their lines;
* `parse_text`: a listing reads as the draft to which its items are added.
-/

import SceneScript.Listing
import SceneScript.Listing.Reader
import SceneScript.Proofs.Pieces
import SceneScript.Proofs.Traversal
import Mathlib.Data.List.TakeWhile

namespace SceneScript

open Text

/-- **The table of labels holds the labels at each position.** -/
theorem Script.getElem?_labelTable (script : Script) {index : Nat} (inside : index ≤ script.size) :
    script.labelTable[index]? = some (script.labelsAt index) := by
  unfold labelTable labelsAt
  rw [← Array.foldr_toList]
  induction script.labels.toList with
  | nil =>
    rw [List.foldr_nil, Array.getElem?_replicate, if_pos (Nat.lt_succ_of_le inside)]
    rfl
  | cons label labels ih =>
    rw [List.foldr_cons]
    cases placed : label.position with
    | none =>
      simp only
      rw [ih, List.filter_cons_of_neg (by simp [placed])]
    | some place =>
      simp only
      rw [Array.getElem?_modify]
      by_cases here : place = index
      · rw [if_pos here, ih, List.filter_cons_of_pos (by simp [placed, here])]
        rfl
      · rw [if_neg here, ih, List.filter_cons_of_neg (by simp [placed, here])]

namespace Listing

/-! ### Items -/

/-- The operands of a line, with what stands before and between them. -/
def operandPart : List String → List Char
  | [] => []
  | operands => ' ' :: List.intercalate [',', ' '] (operands.map String.toList)

theorem operandPart_of_ne_nil {operands : List String} (some : operands ≠ []) :
    operandPart operands = ' ' :: List.intercalate [',', ' '] (operands.map String.toList) := by
  cases operands with
  | nil => exact absurd rfl some
  | cons => rfl

/-- What stands before an instruction in its line. -/
def indent : List Char := List.replicate 4 ' '

/-- The line of an item. -/
def Item.line : Item → List Char
  | .label name => name.toList ++ [':']
  | .instruction mnemonic operands => indent ++ (mnemonic.toList ++ operandPart operands)

/-- The texts of operands in given shapes. -/
def printedOperands (script : Script) (shapes : List Shape) (operands : List Operand) :
    List String :=
  (shapes.zip operands).map fun pair => operandText script pair.1 pair.2

/-- The item of an instruction. -/
def instructionItem (script : Script) (instruction : Instruction) : Item :=
  match instruction.opcode? with
  | none => .instruction instruction.mnemonic [hexPadded 2 instruction.opcode.toNat]
  | some opcode => .instruction opcode.mnemonic
      (printedOperands script opcode.shapes instruction.operands)

/-- The items of the labels at an index. -/
def labelItems (script : Script) (index : Nat) : List Item :=
  (script.labelsAt index).map fun label => .label label.name

/-- The items of instructions that start at an index, and of the labels around them. -/
def itemsFrom (script : Script) (index : Nat) : List Instruction → List Item
  | [] => labelItems script index
  | instruction :: rest =>
    labelItems script index ++
      instructionItem script instruction :: itemsFrom script (index + 1) rest

/-- The items of a script. -/
def items (script : Script) : List Item := itemsFrom script 0 script.instructions

theorem toList_labelLine (label : Label) :
    (labelLine label).toList = (Item.label label.name).line ++ ['\n'] := by
  rw [labelLine, String.toList_append, Item.line, List.append_assoc]
  rfl

theorem toList_instructionText (script : Script) (instruction : Instruction) :
    indent ++ (instructionText script instruction).toList =
      (instructionItem script instruction).line := by
  unfold instructionText instructionItem
  cases instruction.opcode? with
  | none =>
    show _ = indent ++ (instruction.mnemonic.toList ++ ' ' :: _)
    simp [List.intercalate_singleton, toString]
  | some opcode =>
    simp only [Item.line, printedOperands]
    cases opcode.shapes.zip instruction.operands with
    | nil => rw [List.map_nil, operandPart, List.append_nil]
    | cons pair rest =>
      show _ = _ ++ (_ ++ ' ' :: _)
      simp only [String.toList_append, String.toList_intercalate, List.append_assoc]
      rfl

theorem toList_instructionLine (script : Script) (instruction : Instruction) :
    (instructionLine script instruction).toList =
      (instructionItem script instruction).line ++ ['\n'] := by
  have blanks : "    ".toList = indent := rfl
  rw [instructionLine, String.toList_append, String.toList_append, blanks, toList_instructionText]
  rfl

/-- The lines of instructions that start at an index, and of the labels around them. -/
theorem flatMap_toList_eq (script : Script) (index : Nat) (instructions : List Instruction)
    (inside : index + instructions.length = script.size) :
    ((instructions.zipIdx index).flatMap (fun pair =>
        (script.labelTable.getD pair.2 []).map labelLine ++ [instructionLine script pair.1]) ++
      (script.labelTable.getD script.size []).map labelLine).flatMap String.toList =
      (itemsFrom script index instructions).flatMap fun item => item.line ++ ['\n'] := by
  have labels : ∀ index ≤ script.size,
      ((script.labelTable.getD index []).map labelLine).flatMap String.toList =
        (labelItems script index).flatMap fun item => item.line ++ ['\n'] := by
    intro index inside
    rw [Array.getD_eq_getD_getElem?, script.getElem?_labelTable inside, Option.getD_some,
      labelItems, List.flatMap_map, List.flatMap_map]
    exact List.flatMap_congr fun label _ => toList_labelLine label
  induction instructions generalizing index with
  | nil =>
    obtain rfl : index = script.size := inside
    exact labels _ (Nat.le_refl _)
  | cons instruction rest ih =>
    have here := labels index (by simp only [List.length_cons] at inside; omega)
    have later := ih (index + 1) (by simp only [List.length_cons] at inside; omega)
    rw [List.zipIdx_cons, List.flatMap_cons, List.append_assoc, List.append_assoc,
      List.flatMap_append, here, List.singleton_append, List.flatMap_cons, later,
      toList_instructionLine, itemsFrom, List.flatMap_append, List.flatMap_cons]

/-- **A listing is the lines of the items of its script**, a line feed behind each. -/
theorem toList_text (script : Script) :
    (text script).toList = (items script).flatMap fun item => item.line ++ ['\n'] := by
  rw [text, String.toList_join]
  exact flatMap_toList_eq script 0 script.instructions (Nat.zero_add _)

/-! ### Printable items -/

/-- A character that a word of a line can have. -/
def Plain (c : Char) : Prop := isBlank c = false ∧ c ≠ ',' ∧ c ≠ ';'

instance (c : Char) : Decidable (Plain c) := inferInstanceAs (Decidable (_ ∧ _ ∧ _))

/-- A text that keeps its ends when blanks are dropped, and does not end like a label. -/
structure Tidy (text : List Char) : Prop where
  nonempty : text ≠ []
  first : ∀ c ∈ text.head?, isBlank c = false
  last : ∀ c ∈ text.getLast?, isBlank c = false ∧ c ≠ ':'

/-- A text that an operand of a line can have. -/
structure Neat (text : List Char) : Prop extends Tidy text where
  clear : ∀ c ∈ text, c ≠ ',' ∧ c ≠ ';' ∧ c ≠ '\n'

/-- An item whose line cannot be taken for anything else. -/
def Item.Printable : Item → Prop
  | .label name => name.toList ≠ [] ∧ (∀ c ∈ name.toList, Plain c) ∧ name.toList.head? ≠ some '#'
  | .instruction mnemonic operands =>
    mnemonic.toList ≠ [] ∧ (∀ c ∈ mnemonic.toList, Plain c) ∧ mnemonic.toList.head? ≠ some '#' ∧
      mnemonic.toList.getLast? ≠ some ':' ∧ ∀ operand ∈ operands, Neat operand.toList

variable {front middle back text : List Char}

theorem Plain.ne_feed {c : Char} (plain : Plain c) : c ≠ '\n' := by
  rintro rfl
  cases plain.1

theorem Tidy.trim_eq (tidy : Tidy text) : trim text = text :=
  trim_eq_self tidy.first fun c last => (tidy.last c last).1

/-- Tidy texts stay tidy with anything between them. -/
theorem Tidy.append (tidy : Tidy front) (middle : List Char) (tidy' : Tidy back) :
    Tidy (front ++ (middle ++ back)) := by
  refine ⟨List.append_ne_nil_of_left_ne_nil tidy.nonempty _, ?_, ?_⟩
  · rw [List.head?_append_of_ne_nil _ tidy.nonempty]
    exact tidy.first
  · rw [← List.append_assoc, List.getLast?_append_of_ne_nil _ tidy'.nonempty]
    exact tidy'.last

theorem tidy_of_plain (nonempty : text ≠ []) (plain : ∀ c ∈ text, Plain c)
    (last : text.getLast? ≠ some ':') : Tidy text := by
  refine ⟨nonempty, fun c first => (plain c (List.mem_of_mem_head? first)).1, fun c own => ?_⟩
  refine ⟨(plain c (List.mem_of_getLast? own)).1, ?_⟩
  rintro rfl
  exact last own

theorem neat_of_plain (nonempty : text ≠ []) (plain : ∀ c ∈ text, Plain c)
    (last : text.getLast? ≠ some ':') : Neat text :=
  ⟨tidy_of_plain nonempty plain last,
    fun c among => ⟨(plain c among).2.1, (plain c among).2.2, (plain c among).ne_feed⟩⟩

theorem tidy_intercalate {pieces : List (List Char)} (nonempty : pieces ≠ [])
    (tidy : ∀ piece ∈ pieces, Tidy piece) (separator : List Char) :
    Tidy (List.intercalate separator pieces) := by
  induction pieces with
  | nil => exact absurd rfl nonempty
  | cons first rest ih =>
    have own := tidy first List.mem_cons_self
    cases rest with
    | nil =>
      rw [List.intercalate_singleton]
      exact own
    | cons second rest =>
      rw [List.intercalate_cons_cons, List.append_assoc]
      exact own.append separator
        (ih (List.cons_ne_nil _ _) fun piece among => tidy piece (List.mem_cons_of_mem _ among))

/-! ### Lines read as their items -/

/-- What a line holds is what its useful part holds, with any blanks in front of it. -/
theorem parseLine_eq (blank : ∀ c ∈ front, isBlank c = true) (nonempty : text ≠ [])
    (first : ∀ c ∈ text.head?, isBlank c = false ∧ c ≠ '#')
    (last : ∀ c ∈ text.getLast?, isBlank c = false) (clear : ';' ∉ front ++ text) :
    parseLine (front ++ text) = (itemOf (front ++ text) text).map some := by
  have start : trimStart (front ++ text) = text := by
    rw [trimStart_append blank, trimStart_eq_self fun c own => (first c own).1]
  have noComment : text.head? ≠ some '#' := fun own => (first '#' own).2 rfl
  have useful : usefulPart (front ++ text) = text := by
    have all : ∀ c ∈ front ++ text, (c != ';') = true := by
      intro c among
      refine bne_iff_ne.mpr ?_
      rintro rfl
      exact clear among
    rw [usefulPart, List.takeWhile_eq_self_iff.mpr all, trim_append blank,
      trim_eq_self (fun c own => (first c own).1) last]
  rw [parseLine, start, if_neg noComment]
  simp only [useful, List.isEmpty_iff, nonempty, if_false]

theorem itemOf_label (line : List Char) {name : String} (nonempty : name.toList ≠ [])
    (plain : ∀ c ∈ name.toList, Plain c) :
    itemOf line (name.toList ++ [':']) = .ok (.label name) := by
  have solid : ∀ c ∈ name.toList, isBlank c = false := fun c among => (plain c among).1
  have unbroken : name.toList.any isBlank = false := by simpa using solid
  rw [itemOf, List.getLast?_concat, if_pos rfl, List.dropLast_concat, trim_of_not_blank solid]
  simp [nonempty, unbroken]

theorem operandTexts_operandPart {operands : List String}
    (neat : ∀ operand ∈ operands, Neat operand.toList) :
    operandTexts (trim (operandPart operands)) = operands := by
  by_cases none : operands = []
  · rw [none]
    rfl
  · have pieces : operands.map String.toList ≠ [] := by simpa using none
    have neatPieces : ∀ piece ∈ operands.map String.toList, Neat piece :=
      List.forall_mem_map.mpr neat
    have tidy := tidy_intercalate pieces (fun piece among => (neatPieces piece among).toTidy)
      [',', ' ']
    have trimmed : trim (operandPart operands) =
        List.intercalate [',', ' '] (operands.map String.toList) := by
      rw [operandPart_of_ne_nil none, trim_cons rfl, tidy.trim_eq]
    have cut := trim_splitWhere_intercalate pieces fun piece among =>
      ⟨fun comma => ((neatPieces piece among).clear _ comma).1 rfl,
        (neatPieces piece among).trim_eq⟩
    have back : String.ofList ∘ String.toList = id := funext fun _ => String.ofList_toList
    have texts := congrArg (List.map String.ofList) cut
    rw [List.map_map, List.map_map, back, List.map_id] at texts
    rw [trimmed, operandTexts, if_neg (by simpa using tidy.nonempty)]
    exact texts

theorem itemOf_instruction (line : List Char) {mnemonic : String} {operands : List String}
    (plain : ∀ c ∈ mnemonic.toList, Plain c)
    (last : (mnemonic.toList ++ operandPart operands).getLast? ≠ some ':')
    (neat : ∀ operand ∈ operands, Neat operand.toList) :
    itemOf line (mnemonic.toList ++ operandPart operands) =
      .ok (.instruction mnemonic operands) := by
  have solid : ∀ c ∈ mnemonic.toList, (!isBlank c) = true := by
    intro c among
    rw [(plain c among).1]
    rfl
  have stops : (operandPart operands).takeWhile (fun c => !isBlank c) = [] ∧
      (operandPart operands).dropWhile (fun c => !isBlank c) = operandPart operands := by
    cases operands <;> exact ⟨rfl, rfl⟩
  rw [itemOf, if_neg last]
  simp only [List.takeWhile_append_of_pos solid, List.dropWhile_append_of_pos solid, stops,
    List.append_nil, String.ofList_toList, operandTexts_operandPart neat]

/-- The words of an instruction's line: what stands in it behind the blanks. -/
theorem tidy_instruction {mnemonic : String} {operands : List String}
    (tidy : Tidy mnemonic.toList) (neat : ∀ operand ∈ operands, Neat operand.toList) :
    Tidy (mnemonic.toList ++ operandPart operands) := by
  by_cases none : operands = []
  · rw [none, operandPart, List.append_nil]
    exact tidy
  · rw [operandPart_of_ne_nil none]
    refine tidy.append [' '] (tidy_intercalate (by simpa using none) ?_ [',', ' '])
    exact List.forall_mem_map.mpr fun operand among => (neat operand among).toTidy

theorem mem_intercalate {c : Char} {separator : List Char} {pieces : List (List Char)}
    (among : c ∈ List.intercalate separator pieces) :
    c ∈ separator ∨ ∃ piece ∈ pieces, c ∈ piece := by
  induction pieces with
  | nil => cases among
  | cons first rest ih =>
    cases rest with
    | nil =>
      rw [List.intercalate_singleton] at among
      exact .inr ⟨first, List.mem_cons_self, among⟩
    | cons second rest =>
      rw [List.intercalate_cons_cons, List.mem_append, List.mem_append] at among
      rcases among with (own | between) | later
      · exact .inr ⟨first, List.mem_cons_self, own⟩
      · exact .inl between
      · rcases ih later with between | ⟨piece, listed, own⟩
        · exact .inl between
        · exact .inr ⟨piece, List.mem_cons_of_mem _ listed, own⟩

/-- The line of a printable item has neither a semicolon nor a line feed in it. -/
theorem clear_line {item : Item} (printable : item.Printable) :
    ∀ c ∈ item.line, c ≠ ';' ∧ c ≠ '\n' := by
  intro c among
  cases item with
  | label name =>
    rcases List.mem_append.mp among with own | last
    · exact ⟨(printable.2.1 c own).2.2, (printable.2.1 c own).ne_feed⟩
    · rw [List.mem_singleton.mp last]
      decide
  | instruction mnemonic operands =>
    obtain ⟨_, plain, _, _, neat⟩ := printable
    rcases List.mem_append.mp among with blank | behind
    · rw [List.eq_of_mem_replicate blank]
      decide
    · rcases List.mem_append.mp behind with own | part
      · exact ⟨(plain c own).2.2, (plain c own).ne_feed⟩
      · cases operands with
        | nil => cases part
        | cons first rest =>
          rcases List.mem_cons.mp part with rfl | joined
          · decide
          · rcases mem_intercalate joined with between | ⟨piece, listed, own⟩
            · rcases List.mem_pair.mp between with rfl | rfl <;> decide
            · obtain ⟨operand, known, rfl⟩ := List.mem_map.mp listed
              exact ((neat operand known).clear c own).2

/-- **The line of a printable item reads as the item.** -/
theorem parseLine_line {item : Item} (printable : item.Printable) :
    parseLine item.line = .ok (some item) := by
  have clear : ';' ∉ item.line := fun among => (clear_line printable ';' among).1 rfl
  cases item with
  | label name =>
    obtain ⟨nonempty, plain, noComment⟩ := printable
    have first : ∀ c ∈ (name.toList ++ [':']).head?, isBlank c = false ∧ c ≠ '#' := by
      rw [List.head?_append_of_ne_nil _ nonempty]
      intro c own
      refine ⟨(plain c (List.mem_of_mem_head? own)).1, ?_⟩
      rintro rfl
      exact noComment own
    have last : ∀ c ∈ (name.toList ++ [':']).getLast?, isBlank c = false := by
      rw [List.getLast?_concat]
      rintro c ⟨⟩
      rfl
    show parseLine ([] ++ (name.toList ++ [':'])) = _
    rw [parseLine_eq (List.forall_mem_nil _) (by simp) first last clear,
      itemOf_label _ nonempty plain]
    rfl
  | instruction mnemonic operands =>
    obtain ⟨nonempty, plain, noComment, noLabel, neat⟩ := printable
    have tidy := tidy_instruction (tidy_of_plain nonempty plain noLabel) neat
    have first : ∀ c ∈ (mnemonic.toList ++ operandPart operands).head?,
        isBlank c = false ∧ c ≠ '#' := by
      intro c own
      refine ⟨tidy.first c own, ?_⟩
      rintro rfl
      rw [List.head?_append_of_ne_nil _ nonempty] at own
      exact noComment own
    have last : (mnemonic.toList ++ operandPart operands).getLast? ≠ some ':' :=
      fun own => (tidy.last ':' own).2 rfl
    have blank : ∀ c ∈ indent, isBlank c = true := by
      intro c among
      rw [List.eq_of_mem_replicate among]
      rfl
    show parseLine (indent ++ (mnemonic.toList ++ operandPart operands)) = _
    rw [parseLine_eq blank tidy.nonempty first (fun c own => (tidy.last c own).1) clear,
      itemOf_instruction _ plain last neat]
    rfl

/-! ### Listings read as drafts -/

/-- The line of a printable item does not end in a carriage return. -/
theorem getLast?_line {item : Item} (printable : item.Printable) :
    item.line.getLast? ≠ some '\r' := by
  intro last
  cases item with
  | label name =>
    rw [Item.line, List.getLast?_concat] at last
    cases last
  | instruction mnemonic operands =>
    obtain ⟨nonempty, plain, _, noLabel, neat⟩ := printable
    have tidy := tidy_instruction (tidy_of_plain nonempty plain noLabel) neat
    rw [Item.line, List.getLast?_append_of_ne_nil _ tidy.nonempty] at last
    cases (tidy.last _ last).1

/-- Lines are added to a draft like their items. -/
theorem foldlM_addLine {items : List Item} (printable : ∀ item ∈ items, item.Printable)
    {draft final : Draft} (added : items.foldlM Draft.add draft = .ok final) (start : Nat) :
    ((items.map Item.line).zipIdx start).foldlM
      (fun (draft : Draft) (line : List Char × Nat) =>
        (draft.addLine line.1).mapError fun error => LineError.mk (line.2 + 1) error) draft =
      .ok final := by
  induction items generalizing draft start with
  | nil =>
    cases added
    rfl
  | cons item rest ih =>
    rw [List.foldlM_cons] at added
    obtain ⟨next, own, later⟩ := Traversal.bind_eq_ok_iff.mp added
    have line : draft.addLine item.line = .ok next := by
      rw [Draft.addLine, parseLine_line (printable item List.mem_cons_self)]
      exact own
    rw [List.map_cons, List.zipIdx_cons, List.foldlM_cons, line]
    exact ih (fun other among => printable other (List.mem_cons_of_mem _ among)) later (start + 1)

/-- The lines of a listing are those of its items. -/
theorem lines_text {script : Script} (printable : ∀ item ∈ items script, item.Printable) :
    lines (Listing.text script).toList = (items script).map Item.line := by
  have whole := lines_flatMap (List.forall_mem_map.mpr fun item among =>
    ⟨fun feed => (clear_line (printable item among) _ feed).2 rfl,
      getLast?_line (printable item among)⟩)
  rw [List.flatMap_map] at whole
  rw [toList_text, whole]

/-- **A listing reads as the draft to which its items are added.** -/
theorem parse_text {script : Script} (printable : ∀ item ∈ items script, item.Printable)
    {draft : Draft} (added : (items script).foldlM Draft.add {} = .ok draft) (id : UInt8) :
    parse id (Listing.text script) = .ok (draft.script id) := by
  have read := foldlM_addLine printable added 0
  unfold parse
  rw [lines_text printable]
  exact Traversal.bind_eq_ok_iff.mpr ⟨draft, read, rfl⟩

end Listing

end SceneScript
