/-
**The labels of a listing, and what is reported of them.**

A listing is read although a name is defined twice or never. A branch then leads to the first
definition of its name, or nowhere, and the assembler reports every further definition and every
branch that leads nowhere, whatever else is wrong with the script and whether or not its layout
settles.

* `Item.ReadsAs.exists_target`, `Item.ReadsAs.of_label_mem`: the only operand that names a label is
  the destination, and it names the first label of the name in the item;
* `linked_of_parse`: that label stands where the name is defined first (`Item.Linked`);
* `Item.Linked.missingName?`: it has no position if the name is never defined;
* `reported_of_parse`: how often each name is reported, and where.
-/

import SceneScript.Proofs.LabelNumbers
import SceneScript.Proofs.Reports

namespace SceneScript

/-- What is wrong with a script of a scene; nothing if it is assembled. -/
def Script.diagnostics (script : Script) (origin : Origin) (config : AssemblyConfig) :
    List Diagnostic :=
  match script.assemble origin config with
  | .ok _ => []
  | .error diagnostics => diagnostics

theorem Script.diagnostics_eq (script : Script) (origin : Origin) (config : AssemblyConfig) :
    script.diagnostics origin config =
      (script.reports config).map fun finding => { finding with origin } := by
  unfold diagnostics assemble reports
  cases script.build config <;> rfl

theorem Script.map_toFinding_diagnostics (script : Script) (origin : Origin)
    (config : AssemblyConfig) :
    (script.diagnostics origin config).map Diagnostic.toFinding = script.reports config := by
  rw [diagnostics_eq, List.map_map]
  exact List.map_id _

namespace Instruction

theorem target?_of_branchOperand? {opcode : Opcode} (row : opcode ∈ Opcode.catalogue) {place : Nat}
    (destination : opcode.branchOperand? = some place) (operands : List Operand) :
    target? { opcode := opcode.code, operands } = operands[place]?.bind Operand.label? := by
  rw [target?, branchOperand?, opcode?, Opcode.ofCode?_code row, Option.bind_some, destination,
    Option.bind_some]

theorem label_mem_of_target? {instruction : Instruction} {id : Nat}
    (targeted : instruction.target? = some id) : .label id ∈ instruction.operands := by
  obtain ⟨place, _, located⟩ := Option.bind_eq_some_iff.mp targeted
  obtain ⟨operand, found, named⟩ := Option.bind_eq_some_iff.mp located
  cases operand with
  | label own =>
    cases named
    exact List.mem_of_getElem? found
  | _ => cases named

end Instruction

namespace Listing

/-! ### Destinations -/

/-- The text in the place of a destination, if an item is an instruction with one. -/
def Item.destination? : Item → Option String
  | .label _ => none
  | .instruction mnemonic texts =>
    (Opcode.ofMnemonic? mnemonic).bind fun opcode => opcode.branchOperand?.bind (texts[·]?)

variable {labels : Array Label} {item : Item} {instruction : Instruction} {name : String}

/-- A destination names the label of its text. -/
theorem ReadAs.of_isBranch {shape : Shape} {text : String} {operand : Operand}
    (read : ReadAs labels shape text operand) (branches : shape.isBranch = true) :
    ∃ id, operand = .label id ∧ labelPlace? labels text = some id := by
  cases read with
  | label _ known => exact ⟨_, rfl, known⟩
  | value plain =>
    rw [branches] at plain
    cases plain

/-- Only a destination names a label. -/
theorem ReadAs.isBranch_of_label {shape : Shape} {text : String} {id : Nat}
    (read : ReadAs labels shape text (.label id)) : shape.isBranch = true := by
  cases read with
  | label branches _ => exact branches
  | value plain read =>
    have read := read labels
    unfold parseOperand at read
    simp only [plain, Bool.false_eq_true, if_false] at read
    split at read
    · obtain ⟨_, _, same⟩ := Traversal.bind_eq_ok_iff.mp read
      cases same
    · split at read <;> cases read

/-- **An instruction branches to the label of the name in its item.** -/
theorem Item.ReadsAs.exists_target (reads : item.ReadsAs labels instruction)
    (named : item.destination? = some name) :
    ∃ id, instruction.target? = some id ∧ labelPlace? labels name = some id := by
  cases reads with
  | @intro mnemonic texts opcode operands known count each =>
    have row := Opcode.mem_of_ofMnemonic? known
    obtain ⟨lengths, each⟩ := Traversal.forall₂_iff_getElem?.mp each
    rw [destination?, known, Option.bind_some] at named
    obtain ⟨place, destination, texted⟩ := Option.bind_eq_some_iff.mp named
    obtain ⟨shape, shaped, branches⟩ := (Opcode.branchOperand?_eq_some_iff row).mp destination
    have paired : (opcode.shapes.zip texts)[place]? = some (shape, name) :=
      List.getElem?_zip_eq_some.mpr ⟨shaped, texted⟩
    have inside := (List.getElem?_eq_some_iff.mp paired).1
    rw [lengths] at inside
    have found := List.getElem?_eq_getElem inside
    obtain ⟨id, same, known⟩ := (each place _ _ paired found).of_isBranch branches
    refine ⟨id, ?_, known⟩
    rw [Instruction.target?_of_branchOperand? row destination, found, same]
    rfl

/-- **No other operand names a label.** -/
theorem Item.ReadsAs.of_label_mem (reads : item.ReadsAs labels instruction) {id : Nat}
    (member : Operand.label id ∈ instruction.operands) :
    instruction.target? = some id ∧
      ∃ name, item.destination? = some name ∧ labelPlace? labels name = some id := by
  cases reads with
  | @intro mnemonic texts opcode operands known count each =>
    have row := Opcode.mem_of_ofMnemonic? known
    obtain ⟨lengths, each⟩ := Traversal.forall₂_iff_getElem?.mp each
    obtain ⟨place, found⟩ := List.mem_iff_getElem?.mp member
    obtain ⟨⟨shape, text⟩, paired⟩ : ∃ pair, (opcode.shapes.zip texts)[place]? = some pair := by
      refine ⟨_, List.getElem?_eq_getElem ?_⟩
      rw [lengths]
      exact (List.getElem?_eq_some_iff.mp found).1
    have read := each place _ _ paired found
    have branches := read.isBranch_of_label
    obtain ⟨_, same, named⟩ := read.of_isBranch branches
    cases same
    obtain ⟨shaped, texted⟩ := List.getElem?_zip_eq_some.mp paired
    have destination := (Opcode.branchOperand?_eq_some_iff row).mpr ⟨shape, shaped, branches⟩
    refine ⟨?_, text, ?_, named⟩
    · rw [Instruction.target?_of_branchOperand? row destination, found]
      rfl
    · rw [destination?, known, Option.bind_some, destination, Option.bind_some, texted]

/-! ### First definitions -/

theorem definedAt?_eq_none_iff {items : List Item} :
    definedAt? name items = none ↔ name ∉ items.filterMap Item.name? := by
  induction items with
  | nil => simp [definedAt?]
  | cons item rest ih =>
    cases item with
    | label other =>
      show (if name = other then some 0 else definedAt? name rest) = none ↔
        name ∉ other :: rest.filterMap Item.name?
      rw [List.mem_cons, not_or, ← ih]
      by_cases same : name = other <;> simp [same]
    | instruction mnemonic texts =>
      show (definedAt? name rest).map (· + 1) = none ↔ name ∉ rest.filterMap Item.name?
      rw [Option.map_eq_none_iff, ih]

/-- An instruction that branches as its item says: only its destination names a label, and that is
the first one of the name in the item, which stands where the name is defined first. -/
structure Item.Linked (labels : Array Label) (items : List Item) (item : Item)
    (instruction : Instruction) : Prop where
  only : ∀ id : Nat, .label id ∈ instruction.operands → instruction.target? = some id
  target : instruction.target? = item.destination?.bind (labelPlace? labels)
  resolved : ∀ name : String, item.destination? = some name →
    ∃ id label, labelPlace? labels name = some id ∧ labels[id]? = some label ∧
      label.name = name ∧ label.position = definedAt? name items

theorem Item.ReadsAs.linked {items : List Item}
    (positions : ∀ name : String, namedPosition? labels name = definedAt? name items)
    (reads : item.ReadsAs labels instruction) : item.Linked labels items instruction := by
  refine ⟨fun id member => (reads.of_label_mem member).1, ?_, fun name named => ?_⟩
  · cases destination : item.destination? with
    | some name =>
      obtain ⟨id, targeted, known⟩ := reads.exists_target destination
      rw [targeted, Option.bind_some, known]
    | none =>
      refine Option.eq_none_iff_forall_ne_some.mpr fun id targeted => ?_
      obtain ⟨_, name, named, _⟩ := reads.of_label_mem (Instruction.label_mem_of_target? targeted)
      rw [destination] at named
      cases named
  · obtain ⟨id, _, known⟩ := reads.exists_target named
    obtain ⟨label, found, same⟩ := name_of_labelPlace? known
    refine ⟨id, label, known, found, same, ?_⟩
    have position := positions name
    rw [namedPosition?, known, Option.bind_some, found] at position
    exact position

/-- **A destination is missing if its name is never defined.** -/
theorem Item.Linked.missingName? {items : List Item} {size : Nat}
    (linked : item.Linked labels items instruction) (placed : WellPlaced labels size) :
    Slot.missingName? labels size instruction =
      item.destination?.filter (· ∉ items.filterMap Item.name?) := by
  cases destination : item.destination? with
  | none =>
    have targetless := linked.target
    rw [destination, Option.bind_none] at targetless
    rw [Slot.missingName?, targetless]
    rfl
  | some name =>
    obtain ⟨id, label, known, found, named, position⟩ := linked.resolved name destination
    have targeted := linked.target
    rw [destination, Option.bind_some, known] at targeted
    rw [Slot.missingName?_of_target targeted found (placed.inside found), position, named]
    by_cases defined : name ∈ items.filterMap Item.name?
    · rw [if_neg fun undefined => definedAt?_eq_none_iff.mp undefined defined,
        Option.filter_some_neg (by simpa using defined)]
    · rw [if_pos (definedAt?_eq_none_iff.mpr defined),
        Option.filter_some_pos (by simpa using defined)]

/-! ### The report -/

section

variable {id : UInt8} {text : String} {script : Script}

theorem perm_placedNames_of_parse (accepted : parse id text = .ok script) :
    script.placedNames.Perm ((itemsOf text).filterMap Item.name?) := by
  obtain ⟨draft, added, rfl⟩ := foldlM_items_of_parse accepted
  have defined := (Draft.result_of_foldlM added).defined
  rwa [show definedNames (Draft.labels {}) = [] from rfl, List.append_nil] at defined

/-- **A branch that is read leads to the first definition of its name.** -/
theorem linked_of_parse (accepted : parse id text = .ok script) :
    List.Forall₂ (Item.Linked script.labels (itemsOf text))
      ((itemsOf text).filter Item.isInstruction) script.instructions := by
  obtain ⟨draft, added, rfl⟩ := foldlM_items_of_parse accepted
  have result := Draft.result_of_foldlM added
  obtain ⟨code, whole, reads⟩ := result.code
  have positions : ∀ name : String,
      namedPosition? draft.labels name = definedAt? name (itemsOf text) := by
    intro name
    have unnamed : labelPlace? (Draft.labels {}) name = none := by simp [labelPlace?]
    rw [result.position, namedPosition?_of_unnamed unnamed, Option.none_or]
    simp
  show List.Forall₂ (Item.Linked draft.labels (itemsOf text)) _ draft.code.reverse
  rw [show draft.code.reverse = code from whole]
  exact reads.imp fun _ _ read => read.linked positions

theorem count_duplicateLabel_of_parse (accepted : parse id text = .ok script) (origin : Origin)
    (config : AssemblyConfig) (name : String) :
    ((script.diagnostics origin config).map (·.fault)).count (.duplicateLabel name) =
      ((itemsOf text).filterMap Item.name?).count name - 1 := by
  have faults : (script.diagnostics origin config).map (·.fault) =
      (script.reports config).map Finding.fault := by
    rw [← script.map_toFinding_diagnostics origin config, List.map_map]
    rfl
  rw [faults, Script.count_duplicateLabel_reports,
    (perm_placedNames_of_parse accepted).count_eq]

theorem count_undefinedLabel_of_parse (accepted : parse id text = .ok script) (origin : Origin)
    (config : AssemblyConfig) (index : Nat) (name : String) :
    ((script.diagnostics origin config).map Diagnostic.toFinding).count
        { index := index, fault := .undefinedLabel name } =
      if ((itemsOf text).filter Item.isInstruction)[index]?.bind Item.destination? = some name ∧
        name ∉ (itemsOf text).filterMap Item.name? then 1 else 0 := by
  obtain ⟨lengths, linked⟩ := Traversal.forall₂_iff_getElem?.mp (linked_of_parse accepted)
  have missing : script.instructions[index]?.bind (Slot.missingName? script.labels script.size) =
      (((itemsOf text).filter Item.isInstruction)[index]?.bind Item.destination?).filter
        (· ∉ (itemsOf text).filterMap Item.name?) := by
    cases listed : ((itemsOf text).filter Item.isInstruction)[index]? with
    | none =>
      rw [List.getElem?_eq_none_iff, lengths] at listed
      rw [List.getElem?_eq_none listed]
      rfl
    | some item =>
      have inside := (List.getElem?_eq_some_iff.mp listed).1
      rw [lengths] at inside
      have found := List.getElem?_eq_getElem inside
      rw [found, Option.bind_some, Option.bind_some]
      exact (linked index _ _ listed found).missingName? (wellPlaced_of_parse accepted)
  rw [Script.map_toFinding_diagnostics, Script.count_undefinedLabel_reports, missing]
  cases ((itemsOf text).filter Item.isInstruction)[index]?.bind Item.destination? with
  | none => simp
  | some other =>
    by_cases same : other = name
    · subst same
      by_cases defined : other ∈ (itemsOf text).filterMap Item.name?
      · rw [Option.filter_some_neg (by simpa using defined), if_neg fun own => own.2 defined]
        rfl
      · rw [Option.filter_some_pos (by simpa using defined), if_pos ⟨rfl, defined⟩]
        simp
    · rw [if_neg fun own => same (Option.some.inj own.1)]
      refine List.count_eq_zero.mpr fun member => same ?_
      exact Option.some.inj (Option.filter_eq_some_iff.mp (Option.mem_toList.mp member)).1

/-- **No problem with the labels of a listing is lost.** Each branch of a script that is read leads
to the first definition of its name, and nowhere if there is none. Whatever else is wrong with the
script, its diagnostics have each name once for every definition but the first, and each branch that
leads nowhere once, at its own index. -/
theorem reported_of_parse (accepted : parse id text = .ok script) (origin : Origin)
    (config : AssemblyConfig) :
    List.Forall₂ (Item.Linked script.labels (itemsOf text))
      ((itemsOf text).filter Item.isInstruction) script.instructions ∧
    (∀ name : String,
      ((script.diagnostics origin config).map (·.fault)).count (.duplicateLabel name) =
        ((itemsOf text).filterMap Item.name?).count name - 1) ∧
    ∀ (index : Nat) (name : String),
      ((script.diagnostics origin config).map Diagnostic.toFinding).count
          { index := index, fault := .undefinedLabel name } =
        if ((itemsOf text).filter Item.isInstruction)[index]?.bind Item.destination? = some name ∧
          name ∉ (itemsOf text).filterMap Item.name? then 1 else 0 :=
  ⟨linked_of_parse accepted, count_duplicateLabel_of_parse accepted origin config,
    count_undefinedLabel_of_parse accepted origin config⟩

end

/-- A listing that defines one name twice and never defines another. -/
def detours : String :=
  "JMPF end\nstart: ; first\nJMPB start\nstart: ; second\nJMPF nowhere\nend:\n"

/-- The script of that listing. -/
def detoursScript : Script where
  id := 0
  instructions := [
    { opcode := 0x10, operands := [.label 0] },
    { opcode := 0x12, operands := [.label 1] },
    { opcode := 0x10, operands := [.label 3] }]
  labels := #[
    { id := 0, name := "end", position := some 3 },
    { id := 1, name := "start", position := some 1 },
    { id := 2, name := "start", position := some 2 },
    { id := 3, name := "nowhere", position := none }]

theorem reported_of_parse_detours :
    parse 0 detours = .ok detoursScript ∧
      List.Forall₂ (Item.Linked detoursScript.labels (itemsOf detours))
        ((itemsOf detours).filter Item.isInstruction) detoursScript.instructions ∧
      ((detoursScript.diagnostics { script := 0 } {}).map (·.fault)).count
        (.duplicateLabel "start") = 1 ∧
      ((detoursScript.diagnostics { script := 0 } {}).map Diagnostic.toFinding).count
        { index := 2, fault := .undefinedLabel "nowhere" } = 1 := by
  have read : parse 0 detours = .ok detoursScript := by decide +kernel
  obtain ⟨linked, duplicates, missing⟩ := reported_of_parse read { script := 0 } {}
  refine ⟨read, linked, (duplicates "start").trans ?_, (missing 2 "nowhere").trans ?_⟩
  · decide +kernel
  · decide +kernel

end Listing

end SceneScript
