/-
**What a draft holds.**

A script is read item by item. A name stands for the first label that has it: its place among the
labels never changes (`labelPlace?`), and its position is where it is defined first
(`namedPosition?`), whether branches name it before that or behind it.

* `extends_reference`, `of_parseOperands`: naming labels changes neither their places nor their
  positions, and operands name the labels of their texts (`ReadAs`);
* `namedPosition?_define`, `perm_definedNames_define`: a name is defined at the end of the draft,
  unless it is defined already;
* `result_of_foldlM`: what a draft holds after some items were added (`Draft.Result`);
* `foldlM_items_of_parse`: a script that is read is the draft of the items of its listing.
-/

import SceneScript.Listing.Reader
import SceneScript.Proofs.Traversal

namespace SceneScript.Listing

/-- Where the first label with a given name stands. -/
def namedPosition? (labels : Array Label) (name : String) : Option Nat :=
  (labelPlace? labels name).bind fun place => labels[place]?.bind Label.position

/-- The names of the labels that have a position. -/
def definedNames (labels : Array Label) : List String :=
  (labels.toList.filter (·.position.isSome)).map Label.name

variable {labels labels' : Array Label} {name other : String} {place : Nat}

/-! ### One more label -/

theorem labelPlace?_push (labels : Array Label) (label : Label) (name : String) :
    labelPlace? (labels.push label) name =
      (labelPlace? labels name).or (if label.name = name then some labels.size else none) := by
  rw [labelPlace?, Array.findIdx?_push]
  simp [labelPlace?]

theorem lt_size_of_labelPlace? (known : labelPlace? labels name = some place) :
    place < labels.size :=
  (Array.findIdx?_eq_some_iff_getElem.mp known).1

theorem namedPosition?_of_unnamed (unnamed : labelPlace? labels name = none) :
    namedPosition? labels name = none := by
  rw [namedPosition?, unnamed, Option.bind_none]

theorem namedPosition?_push (labels : Array Label) (label : Label) (name : String) :
    namedPosition? (labels.push label) name =
      if labelPlace? labels name = none ∧ label.name = name then label.position
      else namedPosition? labels name := by
  unfold namedPosition?
  rw [labelPlace?_push]
  cases known : labelPlace? labels name with
  | some place =>
    have inside := lt_size_of_labelPlace? known
    simp [Array.getElem?_push, Nat.ne_of_lt inside]
  | none => by_cases same : label.name = name <;> simp [same]

theorem definedNames_push (labels : Array Label) (label : Label) :
    definedNames (labels.push label) =
      definedNames labels ++ if label.position.isSome then [label.name] else [] := by
  cases placed : label.position <;>
    simp [definedNames, List.filter_append, placed]

/-! ### Naming a label -/

/-- Later labels, among which every name has the place that it had. -/
def Keeps (labels labels' : Array Label) : Prop :=
  ∀ (name : String) (place : Nat), labelPlace? labels name = some place →
    labelPlace? labels' name = some place

/-- Labels with more of them, none of which defines anything. -/
structure Extends (labels labels' : Array Label) : Prop where
  keeps : Keeps labels labels'
  position : ∀ name : String, namedPosition? labels' name = namedPosition? labels name
  defined : definedNames labels' = definedNames labels

theorem Extends.refl (labels : Array Label) : Extends labels labels :=
  ⟨fun _ _ => id, fun _ => rfl, rfl⟩

theorem Extends.trans {labels'' : Array Label} (first : Extends labels labels')
    (second : Extends labels' labels'') : Extends labels labels'' :=
  ⟨fun name place known => second.keeps name place (first.keeps name place known),
    fun name => (second.position name).trans (first.position name),
    second.defined.trans first.defined⟩

theorem extends_push (labels : Array Label) (id : Nat) (name : String) :
    Extends labels (labels.push { id, name, position := none }) := by
  refine ⟨fun other place known => ?_, fun other => ?_, ?_⟩
  · rw [labelPlace?_push, known]
    rfl
  · rw [namedPosition?_push]
    split
    · next fresh => rw [namedPosition?_of_unnamed fresh.1]
    · rfl
  · rw [definedNames_push]
    exact List.append_nil _

/-- **Naming a label changes neither the places nor the positions of labels.** -/
theorem extends_reference (labels : Array Label) (name : String) :
    Extends labels (reference labels name).2 := by
  unfold reference
  split
  · exact Extends.refl labels
  · exact extends_push labels labels.size name

theorem labelPlace?_reference (labels : Array Label) (name : String) :
    labelPlace? (reference labels name).2 name = some (reference labels name).1 := by
  unfold reference
  split
  · next known => exact known
  · next fresh =>
    rw [labelPlace?_push, fresh]
    simp

/-! ### Operands -/

/-- An operand that a text of a listing stands for: the label that it names, if it is a destination,
and otherwise a value that does not depend on labels. -/
inductive ReadAs (labels : Array Label) (shape : Shape) (text : String) : Operand → Prop
  | label {id : Nat} : shape.isBranch = true → labelPlace? labels text = some id →
      ReadAs labels shape text (.label id)
  | value {operand : Operand} : shape.isBranch = false →
      (∀ labels, parseOperand labels shape text = .ok (operand, labels)) →
      ReadAs labels shape text operand

theorem ReadAs.mono {shape : Shape} {text : String} {operand : Operand}
    (keeps : Keeps labels labels') (read : ReadAs labels shape text operand) :
    ReadAs labels' shape text operand := by
  cases read with
  | label branches known => exact .label branches (keeps _ _ known)
  | value plain read => exact .value plain read

theorem parseOperand_of_value {shape : Shape} (plain : shape.isBranch = false) (text : String) :
    (∃ operand, ∀ labels, parseOperand labels shape text = .ok (operand, labels)) ∨
      ∃ cause, ∀ labels, parseOperand labels shape text = .error cause := by
  unfold parseOperand
  simp only [plain, Bool.false_eq_true, if_false]
  cases shape.isBlock with
  | true =>
    cases parseBlock text with
    | ok payload => exact .inl ⟨.bytes payload, fun _ => rfl⟩
    | error cause => exact .inr ⟨cause, fun _ => rfl⟩
  | false =>
    cases Text.parseInt64 text.toList with
    | some value => exact .inl ⟨.scalar value, fun _ => rfl⟩
    | none => exact .inr ⟨.badNumber text, fun _ => rfl⟩

theorem of_parseOperand {shape : Shape} {text : String} {operand : Operand}
    (accepted : parseOperand labels shape text = .ok (operand, labels')) :
    Extends labels labels' ∧ ReadAs labels' shape text operand := by
  cases branches : shape.isBranch with
  | true =>
    rw [parseOperand, branches, if_pos rfl] at accepted
    cases accepted
    exact ⟨extends_reference labels text, .label branches (labelPlace?_reference labels text)⟩
  | false =>
    rcases parseOperand_of_value branches text with ⟨value, read⟩ | ⟨cause, failed⟩
    · rw [read labels] at accepted
      cases accepted
      exact ⟨Extends.refl labels, .value branches read⟩
    · rw [failed labels] at accepted
      cases accepted

/-- **Operands name the labels of their texts**, and change no others. -/
theorem of_parseOperands {pairs : List (Shape × String)} {operands : List Operand}
    (accepted : parseOperands labels pairs = .ok (operands, labels')) :
    Extends labels labels' ∧
      List.Forall₂ (fun pair operand => ReadAs labels' pair.1 pair.2 operand) pairs operands := by
  induction pairs generalizing labels operands with
  | nil =>
    cases accepted
    exact ⟨Extends.refl _, .nil⟩
  | cons pair rest ih =>
    obtain ⟨shape, text⟩ := pair
    obtain ⟨⟨operand, between⟩, first, accepted⟩ := Traversal.bind_eq_ok_iff.mp accepted
    obtain ⟨⟨others, final⟩, later, same⟩ := Traversal.bind_eq_ok_iff.mp accepted
    cases same
    obtain ⟨extended, read⟩ := of_parseOperand first
    obtain ⟨extended', reads⟩ := ih later
    exact ⟨extended.trans extended', .cons (read.mono extended'.keeps) reads⟩

/-! ### Giving a label a position -/

/-- A label at a given position. -/
def putAt (position : Nat) (label : Label) : Label := { label with position := some position }

theorem labelPlace?_modify (labels : Array Label) (place position : Nat) (name : String) :
    labelPlace? (labels.modify place (putAt position)) name = labelPlace? labels name := by
  have byName : ∀ labels : Array Label,
      labelPlace? labels name = (labels.map Label.name).findIdx? (· == name) := by
    intro labels
    rw [Array.findIdx?_map]
    rfl
  have names : (labels.modify place (putAt position)).map Label.name = labels.map Label.name := by
    refine Array.ext_getElem? fun index => ?_
    rw [Array.getElem?_map, Array.getElem?_map, Array.getElem?_modify]
    split
    · rw [Option.map_map]
      rfl
    · rfl
  rw [byName, names, byName]

theorem name_of_labelPlace? (known : labelPlace? labels name = some place) :
    ∃ label, labels[place]? = some label ∧ label.name = name := by
  obtain ⟨inside, same, _⟩ := Array.findIdx?_eq_some_iff_getElem.mp known
  exact ⟨_, Array.getElem?_eq_getElem inside, beq_iff_eq.mp same⟩

theorem namedPosition?_modify (known : labelPlace? labels name = some place) (position : Nat)
    (other : String) :
    namedPosition? (labels.modify place (putAt position)) other =
      if other = name then some position else namedPosition? labels other := by
  obtain ⟨label, found, named⟩ := name_of_labelPlace? known
  unfold namedPosition?
  rw [labelPlace?_modify]
  by_cases same : other = name
  · rw [if_pos same, same, known, Option.bind_some, Array.getElem?_modify, if_pos rfl, found]
    rfl
  · rw [if_neg same]
    cases known' : labelPlace? labels other with
    | none => rfl
    | some place' =>
      obtain ⟨label', found', named'⟩ := name_of_labelPlace? known'
      have apart : place ≠ place' := by
        rintro rfl
        rw [found] at found'
        cases found'
        exact same (named'.symm.trans named)
      rw [Option.bind_some, Array.getElem?_modify, if_neg apart]
      rfl

theorem perm_definedNames_modify {label : Label} (found : labels[place]? = some label)
    (unplaced : label.position = none) (position : Nat) :
    (definedNames (labels.modify place (putAt position))).Perm
      (label.name :: definedNames labels) := by
  obtain ⟨front, back, before, after⟩ : ∃ front back, labels.toList = front ++ label :: back ∧
      (labels.modify place (putAt position)).toList = front ++ putAt position label :: back := by
    rw [← Array.getElem?_toList] at found
    obtain ⟨inside, rfl⟩ := List.getElem?_eq_some_iff.mp found
    refine ⟨labels.toList.take place, labels.toList.drop (place + 1), ?_, ?_⟩
    · rw [List.getElem_cons_drop, List.take_append_drop]
    · rw [Array.toList_modify, List.modify_eq_take_cons_drop inside]
  unfold definedNames
  rw [before, after, List.filter_append, List.filter_append, List.filter_cons_of_pos rfl,
    List.filter_cons_of_neg (by simp [unplaced]), List.map_append, List.map_append, List.map_cons]
  exact List.perm_middle

/-! ### Defining a label -/

namespace Draft

variable {draft : Draft}

@[simp] theorem code_define (draft : Draft) (name : String) :
    (draft.define name).code = draft.code := by
  unfold define
  split
  · rfl
  · split <;> rfl

@[simp] theorem size_define (draft : Draft) (name : String) :
    (draft.define name).size = draft.size := by
  unfold define
  split
  · rfl
  · split <;> rfl

/-- **What defining a name does to the labels**: it gives a position to the first label of the name,
or adds one more, if the first has a position or there is none. -/
theorem labels_define (draft : Draft) (name : String) :
    (namedPosition? draft.labels name = none ∧
      ∃ place, labelPlace? draft.labels name = some place ∧
        (draft.define name).labels = draft.labels.modify place (putAt draft.size)) ∨
    ((labelPlace? draft.labels name = none ∨ (namedPosition? draft.labels name).isSome) ∧
      (draft.define name).labels =
        draft.labels.push { id := draft.labels.size, name, position := some draft.size }) := by
  unfold define namedPosition?
  cases known : labelPlace? draft.labels name with
  | none => exact .inr ⟨.inl rfl, rfl⟩
  | some place =>
    simp only [Option.bind_some]
    cases placed : draft.labels[place]?.bind Label.position with
    | none => exact .inl ⟨rfl, place, rfl, rfl⟩
    | some position => exact .inr ⟨.inr rfl, rfl⟩

/-- The place of a name stays when labels are defined. -/
theorem keeps_define (draft : Draft) (name : String) :
    Keeps draft.labels (draft.define name).labels := by
  intro other place known
  rcases labels_define draft name with ⟨_, own, _, modified⟩ | ⟨_, pushed⟩
  · rw [modified, labelPlace?_modify, known]
  · rw [pushed, labelPlace?_push, known]
    rfl

/-- **A name is defined at the end of the draft**, unless it is defined already. -/
theorem namedPosition?_define (draft : Draft) (name other : String) :
    namedPosition? (draft.define name).labels other =
      (namedPosition? draft.labels other).or (if other = name then some draft.size else none) := by
  -- A label that is pushed is the first of its name only if the name was unknown: otherwise the
  -- name is defined already, and stays where it is.
  rcases labels_define draft name with ⟨undefined, own, known, modified⟩ | ⟨taken, pushed⟩
  · rw [modified, namedPosition?_modify known]
    by_cases same : other = name
    · rw [if_pos same, if_pos same, same, undefined]
      rfl
    · rw [if_neg same, if_neg same, Option.or_none]
  · rw [pushed, namedPosition?_push]
    by_cases same : other = name
    · subst same
      rcases taken with fresh | defined
      · rw [if_pos ⟨fresh, rfl⟩, if_pos rfl, namedPosition?_of_unnamed fresh, Option.none_or]
      · obtain ⟨position, placed⟩ := Option.isSome_iff_exists.mp defined
        rw [if_neg, placed, Option.some_or]
        rintro ⟨fresh, _⟩
        rw [namedPosition?_of_unnamed fresh] at placed
        cases placed
    · rw [if_neg fun own => same own.2.symm, if_neg same, Option.or_none]

/-- **Defining a name adds it to the names that are defined.** -/
theorem perm_definedNames_define (draft : Draft) (name : String) :
    (definedNames (draft.define name).labels).Perm (name :: definedNames draft.labels) := by
  rcases labels_define draft name with ⟨undefined, own, known, modified⟩ | ⟨_, pushed⟩
  · obtain ⟨label, found, named⟩ := name_of_labelPlace? known
    have unplaced : label.position = none := by
      rw [namedPosition?, known, Option.bind_some, found] at undefined
      exact undefined
    rw [modified, ← named]
    exact perm_definedNames_modify found unplaced draft.size
  · rw [pushed, definedNames_push]
    exact List.perm_append_singleton name _

end Draft

/-! ### Adding items -/

/-- The number of instructions before the first label of a given name. -/
def definedAt? (name : String) : List Item → Option Nat
  | [] => none
  | .label other :: rest => if name = other then some 0 else definedAt? name rest
  | .instruction _ _ :: rest => (definedAt? name rest).map (· + 1)

/-- The name of a label's item. -/
def Item.name? : Item → Option String
  | .label name => some name
  | .instruction _ _ => none

def Item.isInstruction : Item → Bool
  | .label _ => false
  | .instruction _ _ => true

/-- An instruction that an item of a listing stands for. -/
inductive Item.ReadsAs (labels : Array Label) : Item → Instruction → Prop
  | intro {mnemonic : String} {texts : List String} {opcode : Opcode} {operands : List Operand} :
      Opcode.ofMnemonic? mnemonic = some opcode → texts.length = opcode.shapes.length →
      List.Forall₂ (fun pair operand => ReadAs labels pair.1 pair.2 operand)
        (opcode.shapes.zip texts) operands →
      ReadsAs labels (.instruction mnemonic texts) { opcode := opcode.code, operands }

theorem Item.ReadsAs.mono {item : Item} {instruction : Instruction} (keeps : Keeps labels labels')
    (reads : item.ReadsAs labels instruction) : item.ReadsAs labels' instruction := by
  cases reads with
  | intro known count operands =>
    exact .intro known count (operands.imp fun _ _ read => read.mono keeps)

namespace Draft

variable {draft next final : Draft} {items : List Item}

/-- An instruction that is added has as many operands as its opcode, and they can be read. -/
theorem add_instruction_eq {mnemonic : String} {texts : List String}
    (added : draft.add (.instruction mnemonic texts) = .ok next) :
    ∃ opcode operands labels, Opcode.ofMnemonic? mnemonic = some opcode ∧
      texts.length = opcode.shapes.length ∧
      parseOperands draft.labels (opcode.shapes.zip texts) = .ok (operands, labels) ∧
      next = { code := { opcode := opcode.code, operands } :: draft.code, size := draft.size + 1,
               labels } := by
  unfold add at added
  simp only at added
  split at added
  · cases added
  · next opcode known =>
    split at added
    · next count =>
      obtain ⟨⟨operands, labels⟩, accepted, same⟩ := Traversal.bind_eq_ok_iff.mp added
      cases same
      exact ⟨opcode, operands, labels, known, count, accepted, rfl⟩
    · cases added

/-- **What adding an instruction does**: it reads as one more instruction, which may name labels. -/
theorem add_instruction {mnemonic : String} {texts : List String}
    (added : draft.add (.instruction mnemonic texts) = .ok next) :
    ∃ instruction, next.code = instruction :: draft.code ∧ next.size = draft.size + 1 ∧
      Extends draft.labels next.labels ∧
      (Item.instruction mnemonic texts).ReadsAs next.labels instruction := by
  obtain ⟨opcode, operands, labels, known, count, accepted, rfl⟩ := add_instruction_eq added
  obtain ⟨extended, reads⟩ := of_parseOperands accepted
  exact ⟨_, rfl, rfl, extended, .intro known count reads⟩

/-- What a draft holds after some items were added to another one. -/
structure Result (draft final : Draft) (items : List Item) : Prop where
  keeps : Keeps draft.labels final.labels
  position : ∀ name : String, namedPosition? final.labels name =
    (namedPosition? draft.labels name).or ((definedAt? name items).map (draft.size + ·))
  defined : (definedNames final.labels).Perm
    (items.filterMap Item.name? ++ definedNames draft.labels)
  code : ∃ code, final.code.reverse = draft.code.reverse ++ code ∧
    List.Forall₂ (Item.ReadsAs final.labels) (items.filter Item.isInstruction) code

theorem Result.label (result : Result (draft.define name) final items) :
    Result draft final (.label name :: items) := by
  refine ⟨fun other place known => ?_, fun other => ?_, ?_, ?_⟩
  · exact result.keeps other place (keeps_define draft name other place known)
  · rw [result.position, namedPosition?_define, size_define, definedAt?]
    cases namedPosition? draft.labels other with
    | some position => rfl
    | none => by_cases same : other = name <;> simp [same]
  · have before := (perm_definedNames_define draft name).append_left (items.filterMap Item.name?)
    exact (result.defined.trans before).trans List.perm_middle
  · obtain ⟨code, split, reads⟩ := result.code
    exact ⟨code, by rw [split, code_define], reads⟩

theorem Result.instruction {mnemonic : String} {texts : List String} {instruction : Instruction}
    (code : next.code = instruction :: draft.code) (size : next.size = draft.size + 1)
    (extended : Extends draft.labels next.labels)
    (reads : (Item.instruction mnemonic texts).ReadsAs next.labels instruction)
    (result : Result next final items) :
    Result draft final (.instruction mnemonic texts :: items) := by
  refine ⟨fun other place known => ?_, fun other => ?_, ?_, ?_⟩
  · exact result.keeps other place (extended.keeps other place known)
  · rw [result.position, extended.position, size, definedAt?, Option.map_map]
    congr 2
    funext count
    show draft.size + 1 + count = draft.size + (count + 1)
    omega
  · rw [← extended.defined]
    exact result.defined
  · obtain ⟨later, split, others⟩ := result.code
    refine ⟨instruction :: later, ?_, .cons (reads.mono result.keeps) others⟩
    rw [split, code, List.reverse_cons, List.append_assoc, List.singleton_append]

/-- **What a draft holds after some items were added.** -/
theorem result_of_foldlM (added : items.foldlM add draft = .ok final) :
    Result draft final items := by
  induction items generalizing draft with
  | nil =>
    cases added
    refine ⟨fun _ _ => id, fun name => ?_, .refl _, [], (List.append_nil _).symm, .nil⟩
    rw [definedAt?, Option.map_none, Option.or_none]
  | cons item rest ih =>
    rw [List.foldlM_cons] at added
    obtain ⟨next, first, later⟩ := Traversal.bind_eq_ok_iff.mp added
    cases item with
    | label name =>
      cases first
      exact (ih later).label
    | instruction mnemonic texts =>
      obtain ⟨instruction, code, size, extended, reads⟩ := add_instruction first
      exact (ih later).instruction code size extended reads

/-- Items can be added to a draft, if each of them can be added to every draft. -/
theorem exists_foldlM (each : ∀ item ∈ items, ∀ draft : Draft, ∃ next, draft.add item = .ok next)
    (draft : Draft) : ∃ final, items.foldlM add draft = .ok final := by
  induction items generalizing draft with
  | nil => exact ⟨draft, rfl⟩
  | cons item rest ih =>
    obtain ⟨next, first⟩ := each item List.mem_cons_self draft
    obtain ⟨final, later⟩ := ih (fun other among => each other (List.mem_cons_of_mem _ among)) next
    refine ⟨final, ?_⟩
    rw [List.foldlM_cons, first]
    exact later

end Draft

/-! ### The items of a listing -/

/-- What the lines of a listing hold, without those that hold nothing or cannot be read. -/
def itemsOf (text : String) : List Item :=
  (Text.lines text.toList).filterMap fun line => (parseLine line).toOption.join

theorem foldlM_add_of_addLine {lines : List (List Char)} {start : Nat} {draft final : Draft}
    (accepted : (lines.zipIdx start).foldlM
      (fun (draft : Draft) (line : List Char × Nat) =>
        (draft.addLine line.1).mapError fun error => LineError.mk (line.2 + 1) error) draft =
      .ok final) :
    (lines.filterMap fun line => (parseLine line).toOption.join).foldlM Draft.add draft =
      .ok final := by
  induction lines generalizing start draft with
  | nil =>
    cases accepted
    rfl
  | cons line rest ih =>
    rw [List.zipIdx_cons, List.foldlM_cons] at accepted
    obtain ⟨next, first, later⟩ := Traversal.bind_eq_ok_iff.mp accepted
    have added : draft.addLine line = .ok next := by
      cases outcome : draft.addLine line with
      | ok other =>
        rw [outcome] at first
        cases first
        rfl
      | error cause =>
        rw [outcome] at first
        cases first
    unfold Draft.addLine at added
    cases read : parseLine line with
    | error cause =>
      rw [read] at added
      cases added
    | ok item? =>
      rw [read] at added
      cases item? with
      | none =>
        cases added
        rw [List.filterMap_cons_none (by rw [read]; rfl)]
        exact ih later
      | some item =>
        rw [List.filterMap_cons_some (by rw [read]; rfl), List.foldlM_cons]
        exact Traversal.bind_eq_ok_iff.mpr ⟨next, added, ih later⟩

/-- **A script that is read is the draft of the items of its listing.** -/
theorem foldlM_items_of_parse {id : UInt8} {text : String} {script : Script}
    (accepted : parse id text = .ok script) :
    ∃ draft, (itemsOf text).foldlM Draft.add {} = .ok draft ∧ script = draft.script id := by
  obtain ⟨draft, folded, same⟩ := Traversal.bind_eq_ok_iff.mp accepted
  cases same
  exact ⟨draft, foldlM_add_of_addLine folded, rfl⟩

end SceneScript.Listing
