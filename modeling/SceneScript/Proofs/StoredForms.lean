/-
**Stored scenes are read back.**

A value recovers if reading its stored form gives it again. Records recover if their fields do, and
lists if their items do. Only the numbers and positions of labels and the number of passes need a
bound for it: they are stored in 64 bits (`Scene.Fits`). Groups and scenes are read field by field
first, and then have to obey their rules.

* `orElse_of_single`, `seq_ok`: a field that stands once is read, and so is a record of such fields;
* `recovers_script`, `recovers_entry`, `recovers_config`: what recovers if its numbers fit;
* `Group.read_eq_ok_iff`, `Scene.read_eq_ok_iff`: a group or scene is read if its fields are and it
  obeys the rules, and nothing in it is changed;
* `Scene.fits_of_read`: numbers that were read fit;
* `Scene.read_write_iff`: a scene is read back if it obeys the rules and its numbers fit.
-/

import SceneScript.Proofs.Rules

namespace SceneScript

namespace Stored

variable {α β : Type}

/-- A value that is read back from its stored form. -/
def Recovers [Stored α] (value : α) : Prop := read (write value) = .ok value

/-- The largest number of a label, position or pass: they are stored in 64 bits. -/
def maxCount : Nat := 0xFFFFFFFFFFFFFFFF

/-! ### Numbers, texts and lists -/

theorem readInt_eq_ok_iff {lowest highest value : Int} {json : Json} :
    readInt lowest highest json = .ok value ↔
      json = .int value ∧ lowest ≤ value ∧ value ≤ highest := by
  cases json with
  | int own =>
    simp only [readInt, Json.int.injEq]
    by_cases inside : lowest ≤ own ∧ own ≤ highest
    · rw [if_pos inside, Except.ok.injEq]
      exact ⟨fun same => ⟨same, same ▸ inside⟩, And.left⟩
    · rw [if_neg inside]
      refine iff_of_false nofun ?_
      rintro ⟨rfl, bounds⟩
      exact inside bounds
  | _ => exact iff_of_false nofun fun impossible => nomatch impossible.1

/-- A number in its range is read as it is. -/
theorem read_number {lowest highest value : Int} (ofInt : Int → α) (above : lowest ≤ value)
    (below : value ≤ highest) :
    (do return ofInt (← readInt lowest highest (.int value)) : Except ReadError α) =
      .ok (ofInt value) := by
  rw [readInt_eq_ok_iff.mpr ⟨rfl, above, below⟩]
  rfl

theorem recovers_uint8 (value : UInt8) : Recovers value := by
  have bound := value.toNat_lt
  refine (read_number (fun own => own.toNat.toUInt8) (by omega) (by omega)).trans ?_
  simp

theorem recovers_uint16 (value : UInt16) : Recovers value := by
  have bound := value.toNat_lt
  refine (read_number (fun own => own.toNat.toUInt16) (by omega) (by omega)).trans ?_
  simp

theorem recovers_int64 (value : Int64) : Recovers value := by
  have above := value.le_toInt
  have below := value.toInt_lt
  refine (read_number Int64.ofInt (by omega) (by omega)).trans ?_
  rw [Int64.ofInt_toInt]

theorem recovers_int32 (value : Int32) : Recovers value := by
  have above := value.le_toInt
  have below := value.toInt_lt
  refine (read_number Int32.ofInt (by omega) (by omega)).trans ?_
  rw [Int32.ofInt_toInt]

theorem recovers_nat {value : Nat} (small : value ≤ maxCount) : Recovers value := by
  unfold maxCount at small
  refine (read_number Int.toNat (by omega) (by omega)).trans ?_
  simp

theorem le_maxCount_of_read {json : Json} {value : Nat} (accepted : read json = .ok value) :
    value ≤ maxCount := by
  obtain ⟨own, read, same⟩ := Traversal.bind_eq_ok_iff.mp accepted
  obtain ⟨_, positive, small⟩ := readInt_eq_ok_iff.mp read
  cases same
  unfold maxCount
  omega

theorem recovers_bool (value : Bool) : Recovers value := rfl

theorem recovers_string (value : String) : Recovers value := rfl

theorem recovers_list [Stored α] {items : List α} (each : ∀ item ∈ items, Recovers item) :
    Recovers items := by
  show (items.map write).mapM read = .ok items
  rw [Traversal.mapM_eq_ok_iff, List.forall₂_map_left_iff, List.forall₂_same]
  exact each

/-- Reading nothing or a value, where values are not stored as nothing. -/
theorem recovers_option [Stored α] {value : Option α} (plain : ∀ own : α, write own ≠ .null)
    (each : ∀ own ∈ value, Recovers own) : Recovers value := by
  cases value with
  | none => rfl
  | some own =>
    have present : (read (write own) : Except ReadError (Option α)) =
        (read (write own) : Except ReadError α) >>= fun value => .ok (some value) := by
      cases stored : (write own : Json) with
      | null => exact absurd stored (plain own)
      | _ => rfl
    exact present.trans (by rw [each own rfl]; rfl)

theorem exists_of_mem_option [Stored α] {json : Json} {value : Option α}
    (accepted : read json = .ok value) {own : α} (member : own ∈ value) :
    ∃ json', read json' = .ok own := by
  cases json with
  | null =>
    cases accepted
    cases member
  | _ =>
    obtain ⟨value, read, same⟩ := Traversal.bind_eq_ok_iff.mp accepted
    cases same
    cases member
    exact ⟨_, read⟩

/-- A field that need not be there is read from some stored form if it has a value. -/
theorem exists_of_mem_optional [Stored α] {fields : Fields} {name : String} {value : Option α}
    (accepted : fields.optional name = .ok value) {own : α} (member : own ∈ value) :
    ∃ json, read json = .ok own := by
  rcases exists_of_orElse accepted with ⟨_, found⟩ | missing
  · exact exists_of_mem_option found member
  · have absent : value = none := by
      cases named : fields.named with
      | true =>
        rw [named] at missing
        cases missing
        rfl
      | false =>
        rw [named] at missing
        cases missing
    rw [absent] at member
    cases member

/-! ### Records and cases -/

/-- A case of a choice is read with its data. -/
theorem Recovers.case [Stored α] {value : α} (own : Recovers value) (f : α → β) :
    (do return f (← read (write value)) : Except ReadError β) = .ok (f value) := by
  rw [show read (write value) = .ok value from own]
  rfl

theorem seq_ok {f : FieldRead (α → β)} {field : FieldRead α} {g : α → β} {value : α}
    (first : f = .ok g) (second : field = .ok value) : f <*> field = .ok (g value) := by
  subst first second
  rfl

theorem map_ok {field : FieldRead α} {value : α} (g : α → β) (read : field = .ok value) :
    g <$> field = .ok (g value) := by
  subst read
  rfl

/-- A field that stands once in an object is read there. -/
theorem orElse_of_single [Stored α] {members : List (String × Json)} {name : String} {value : α}
    {otherwise : FieldRead α}
    (single : members.filter (fun member => member.1 == name) = [(name, write value)])
    (own : Recovers value) : Fields.orElse { members } name otherwise = .ok value := by
  have once : (members.zipIdx.filter fun item => item.1.1 == name).map Prod.fst =
      [(name, write value)] := by
    rw [← single, ← List.zipIdx_map_fst 0 members, List.filter_map, List.zipIdx_map_fst]
    rfl
  obtain ⟨⟨member, place⟩, found, same⟩ := List.map_eq_singleton_iff.mp once
  cases same
  have lookup : Fields.lookup { members } name = (.ok (some value) : FieldRead (Option α)) := by
    unfold Fields.lookup
    simp only [found]
    rw [own]
  rw [Fields.orElse, lookup]

theorem readRecord_object {names : List String} {fields : Fields → FieldRead α}
    {members : List (String × Json)} {value : α} (read : fields { members } = .ok value) :
    readRecord names fields (.object members) = .ok value := by
  show Fields.finish { members } (fields { members }) = .ok value
  rw [read]
  rfl

end Stored

open Stored

/-! ### Numbers that fit -/

/-- The number of a label fits. -/
def Operand.Fits : Operand → Prop
  | .label id => id ≤ maxCount
  | _ => True

/-- The number and the position of a label fit. -/
structure Label.Fits (label : Label) : Prop where
  id : label.id ≤ maxCount
  position : ∀ position ∈ label.position, position ≤ maxCount

/-- All numbers and positions of labels in a script fit. -/
structure Script.Fits (script : Script) : Prop where
  operands : ∀ instruction ∈ script.instructions, ∀ operand ∈ instruction.operands, operand.Fits
  labels : ∀ label ∈ script.labels, label.Fits

/-- All numbers and positions of labels in a scene fit, and so does its limit of passes. -/
structure Scene.Fits (scene : Scene) : Prop where
  scripts : ∀ group ∈ scene.groups, ∀ entry ∈ group.entries, entry.script.Fits
  passes : ∀ passes ∈ scene.config.maxPasses, passes ≤ maxCount

/-! ### What is read back -/

theorem recovers_operand {operand : Operand} (fits : operand.Fits) : Recovers operand := by
  cases operand with
  | scalar value => exact (recovers_int64 value).case Operand.scalar
  | label id => exact (recovers_nat fits).case Operand.label
  | offset value => exact (recovers_int32 value).case Operand.offset
  | bytes payload => exact (recovers_list fun byte _ => recovers_uint8 byte).case Operand.bytes

theorem recovers_instruction {instruction : Instruction}
    (fits : ∀ operand ∈ instruction.operands, operand.Fits) : Recovers instruction := by
  have code := recovers_uint8 instruction.opcode
  have operands : Recovers instruction.operands :=
    recovers_list fun operand member => recovers_operand (fits operand member)
  exact readRecord_object
    (seq_ok (map_ok Instruction.mk (orElse_of_single rfl code)) (orElse_of_single rfl operands))

theorem recovers_label {label : Label} (fits : label.Fits) : Recovers label := by
  have id := recovers_nat fits.id
  have name := recovers_string label.name
  have position : Recovers label.position :=
    recovers_option (fun _ => nofun) fun place placed => recovers_nat (fits.position place placed)
  exact readRecord_object
    (seq_ok (seq_ok (map_ok Label.mk (orElse_of_single rfl id)) (orElse_of_single rfl name))
      (orElse_of_single rfl position))

theorem recovers_script {script : Script} (fits : script.Fits) : Recovers script := by
  have id := recovers_uint8 script.id
  have instructions : Recovers script.instructions :=
    recovers_list fun instruction member => recovers_instruction (fits.operands instruction member)
  have labels : Recovers script.labels.toList :=
    recovers_list fun label member => recovers_label (fits.labels label (by simpa using member))
  exact readRecord_object
    (seq_ok (seq_ok (map_ok Script.mk (orElse_of_single rfl id))
      (orElse_of_single rfl instructions)) (map_ok List.toArray (orElse_of_single rfl labels)))

theorem recovers_priority (priority : Priority) : Recovers priority := by
  have chosen : Priority.ofLevel priority.level = .ok priority := dif_pos priority.valid
  refine Traversal.bind_eq_ok_iff.mpr ⟨priority.level, recovers_uint8 priority.level, ?_⟩
  rw [chosen]
  rfl

theorem recovers_invocation (invocation : Invocation) : Recovers invocation := by
  cases invocation <;> rfl

theorem recovers_entry {entry : ScriptEntry} (fits : entry.script.Fits) : Recovers entry := by
  have script := recovers_script fits
  have priority := recovers_priority entry.priority
  have invocation := recovers_invocation entry.invocation
  have length : Recovers entry.builtLength :=
    recovers_option (fun _ => nofun) fun length _ => recovers_uint16 length
  exact readRecord_object
    (seq_ok (seq_ok (seq_ok (map_ok ScriptEntry.mk (orElse_of_single rfl script))
      (orElse_of_single rfl priority)) (orElse_of_single rfl invocation))
      (orElse_of_single rfl length))

theorem recovers_config {config : AssemblyConfig}
    (fits : ∀ passes ∈ config.maxPasses, passes ≤ maxCount) : Recovers config := by
  have flips := recovers_bool config.flipJumps
  have passes : Recovers config.maxPasses :=
    recovers_option (fun _ => nofun) fun passes given => recovers_nat (fits passes given)
  exact readRecord_object
    (seq_ok (map_ok AssemblyConfig.mk (orElse_of_single rfl flips)) (orElse_of_single rfl passes))

theorem recovers_info (info : SceneInfo) : Recovers info := by
  have id := recovers_uint16 info.id
  have name := recovers_string info.name
  exact readRecord_object
    (seq_ok (map_ok SceneInfo.mk (orElse_of_single rfl id)) (orElse_of_single rfl name))

/-! ### What was read fits -/

section Read

variable {json : Json}

theorem Operand.fits_of_read {operand : Operand} (accepted : Stored.read json = .ok operand) :
    operand.Fits := by
  cases operand with
  | label id =>
    simp only [Stored.read] at accepted
    split at accepted
    · obtain ⟨_, _, same⟩ := Traversal.bind_eq_ok_iff.mp accepted
      cases same
    · obtain ⟨_, read, same⟩ := Traversal.bind_eq_ok_iff.mp accepted
      cases same
      exact le_maxCount_of_read read
    · obtain ⟨_, _, same⟩ := Traversal.bind_eq_ok_iff.mp accepted
      cases same
    · obtain ⟨_, _, same⟩ := Traversal.bind_eq_ok_iff.mp accepted
      cases same
    · cases accepted
  | _ => trivial

theorem Instruction.fits_of_read {instruction : Instruction}
    (accepted : Stored.read json = .ok instruction) :
    ∀ operand ∈ instruction.operands, operand.Fits := by
  obtain ⟨fields, read⟩ := exists_of_readRecord accepted
  obtain ⟨_, operands, start, listed, rfl⟩ := seq_eq_ok read
  obtain ⟨_, _, rfl⟩ := map_eq_ok start
  obtain ⟨_, readAll⟩ := exists_of_required listed
  intro operand member
  obtain ⟨_, readOne⟩ := exists_of_mem_read readAll member
  exact Operand.fits_of_read readOne

theorem Label.fits_of_read {label : Label} (accepted : Stored.read json = .ok label) :
    label.Fits := by
  obtain ⟨fields, read⟩ := exists_of_readRecord accepted
  obtain ⟨_, position, front, placed, rfl⟩ := seq_eq_ok read
  obtain ⟨_, name, start, _, rfl⟩ := seq_eq_ok front
  obtain ⟨id, numbered, rfl⟩ := map_eq_ok start
  refine ⟨?_, fun own member => ?_⟩
  · obtain ⟨_, readId⟩ := exists_of_required numbered
    exact le_maxCount_of_read readId
  · obtain ⟨_, readOwn⟩ := exists_of_mem_optional placed member
    exact le_maxCount_of_read readOwn

theorem Script.fits_of_read {script : Script} (accepted : Stored.read json = .ok script) :
    script.Fits := by
  obtain ⟨fields, read⟩ := exists_of_readRecord accepted
  obtain ⟨_, labels, front, placed, rfl⟩ := seq_eq_ok read
  obtain ⟨_, instructions, start, listed, rfl⟩ := seq_eq_ok front
  obtain ⟨_, _, rfl⟩ := map_eq_ok start
  obtain ⟨labels, numbered, rfl⟩ := map_eq_ok placed
  refine ⟨fun instruction member => ?_, fun label member => ?_⟩
  · obtain ⟨_, readAll⟩ := exists_of_required listed
    obtain ⟨_, readOne⟩ := exists_of_mem_read readAll member
    exact Instruction.fits_of_read readOne
  · obtain ⟨_, readAll⟩ := exists_of_required numbered
    obtain ⟨_, readOne⟩ := exists_of_mem_read readAll (by simpa using member)
    exact Label.fits_of_read readOne

theorem ScriptEntry.fits_of_read {entry : ScriptEntry} (accepted : Stored.read json = .ok entry) :
    entry.script.Fits := by
  obtain ⟨fields, read⟩ := exists_of_readRecord accepted
  obtain ⟨_, _, front, _, rfl⟩ := seq_eq_ok read
  obtain ⟨_, _, middle, _, rfl⟩ := seq_eq_ok front
  obtain ⟨_, _, start, _, rfl⟩ := seq_eq_ok middle
  obtain ⟨script, written, rfl⟩ := map_eq_ok start
  obtain ⟨_, readScript⟩ := exists_of_required written
  exact Script.fits_of_read readScript

theorem AssemblyConfig.fits_of_read {config : AssemblyConfig}
    (accepted : Stored.read json = .ok config) :
    ∀ passes ∈ config.maxPasses, passes ≤ maxCount := by
  obtain ⟨fields, read⟩ := exists_of_readRecord accepted
  obtain ⟨_, limit, start, given, rfl⟩ := seq_eq_ok read
  obtain ⟨_, _, rfl⟩ := map_eq_ok start
  intro passes member
  rcases exists_of_orElse given with ⟨_, readLimit⟩ | missing
  · obtain ⟨_, readOwn⟩ := exists_of_mem_option readLimit member
    exact le_maxCount_of_read readOwn
  · cases missing
    cases member

end Read

/-! ### Groups -/

namespace Group

/-- Reads the fields of a group without its rules. -/
def readFields : Json → Except ReadError Group :=
  readRecord ["id", "name", "slots"] fun fields =>
    Group.mk <$> fields.required "id" <*> fields.required "name" <*> fields.required "slots"

variable {group result : Group} {json : Json}

theorem WellFormed.of_sublist {entries : List ScriptEntry} (rules : group.WellFormed)
    (fewer : entries.Sublist group.entries) : WellFormed { group with entries } :=
  wellFormed_iff.mpr ⟨rules.distinct.sublist (fewer.map _), Nat.le_trans fewer.length_le rules.room⟩

/-- An entry can be added if the group then obeys its rules. -/
theorem add_eq_ok_iff_wellFormed (rules : group.WellFormed) {entry : ScriptEntry} :
    unlessRefused (group.add entry) = .ok result ↔
      result = { group with entries := group.entries ++ [entry] } ∧ result.WellFormed := by
  rw [unlessRefused_eq_ok_iff, add_eq_ok_iff]
  constructor
  · rintro ⟨fresh, room, rfl⟩
    exact ⟨rfl, rules.append fresh room⟩
  · rintro ⟨rfl, kept⟩
    refine ⟨fun member => ?_, ?_, rfl⟩
    · have distinct := kept.distinct
      rw [numbers, List.map_append] at distinct
      exact List.disjoint_of_nodup_append distinct member List.mem_cons_self
    · have room := kept.room
      rw [List.length_append] at room
      exact room

/-- **Entries are added as they are, in order**, if the group then obeys its rules. -/
theorem foldlM_add_eq_ok_iff (rules : group.WellFormed) {entries : List ScriptEntry} :
    entries.foldlM (fun group entry => unlessRefused (group.add entry)) group = .ok result ↔
      result = { group with entries := group.entries ++ entries } ∧ result.WellFormed := by
  refine Traversal.foldlM_eq_ok_iff
    (fun group entries => { group with entries := group.entries ++ entries }) WellFormed
    (fun group => ?_) (fun group entry rest => ?_) (fun group entry rest kept => ?_)
    (fun rules => add_eq_ok_iff_wellFormed rules) rules
  · rw [List.append_nil]
  · rw [List.append_assoc, List.singleton_append]
  · exact kept.of_sublist (List.Sublist.append_left (by simp) _)

/-- **A group is read if its fields are and it obeys the rules**, and it is then what its fields
say. -/
theorem read_eq_ok_iff : Stored.read json = .ok group ↔ readFields json = .ok group ∧
    group.WellFormed := by
  have steps : (Stored.read json : Except ReadError Group) = readFields json >>= fun raw =>
      raw.entries.foldlM (fun group entry => unlessRefused (group.add entry))
        { raw with entries := [] } := rfl
  rw [steps, Traversal.bind_eq_ok_iff]
  constructor
  · rintro ⟨raw, read, folded⟩
    obtain ⟨same, rules⟩ := (foldlM_add_eq_ok_iff (wellFormed_new raw.id raw.name)).mp folded
    cases same
    exact ⟨read, rules⟩
  · rintro ⟨read, rules⟩
    have start := wellFormed_new group.id group.name
    exact ⟨group, read, (foldlM_add_eq_ok_iff start).mpr ⟨rfl, rules⟩⟩

theorem fits_of_read (accepted : Stored.read json = .ok group) :
    ∀ entry ∈ group.entries, entry.script.Fits := by
  obtain ⟨fields, read⟩ := exists_of_readRecord (read_eq_ok_iff.mp accepted).1
  obtain ⟨_, entries, front, listed, rfl⟩ := seq_eq_ok read
  obtain ⟨_, _, start, _, rfl⟩ := seq_eq_ok front
  obtain ⟨_, _, rfl⟩ := map_eq_ok start
  obtain ⟨_, readAll⟩ := exists_of_required listed
  intro entry member
  obtain ⟨_, readOne⟩ := exists_of_mem_read readAll member
  exact ScriptEntry.fits_of_read readOne

theorem recovers (rules : group.WellFormed) (fits : ∀ entry ∈ group.entries, entry.script.Fits) :
    Recovers group := by
  have id := recovers_uint8 group.id
  have name := recovers_string group.name
  have entries : Recovers group.entries :=
    recovers_list fun entry member => recovers_entry (fits entry member)
  refine read_eq_ok_iff.mpr ⟨?_, rules⟩
  exact readRecord_object
    (seq_ok (seq_ok (map_ok Group.mk (orElse_of_single rfl id)) (orElse_of_single rfl name))
      (orElse_of_single rfl entries))

end Group

/-! ### Scenes -/

namespace Scene

/-- Reads the fields of a scene without its rules; its groups are read under theirs. -/
def readFields : Json → Except ReadError Scene :=
  readRecord ["info", "groups", "config"] fun fields =>
    Scene.mk <$> fields.required "info" <*> fields.required "groups" <*>
      fields.defaulted "config" {}

variable {scene result : Scene} {json : Json}

/-- A group can be added if the numbers of the groups then are different. -/
theorem addGroup_eq_ok_iff_nodup (distinct : scene.numbers.Nodup) {group : Group} :
    unlessRefused (scene.addGroup group) = .ok result ↔
      result = { scene with groups := scene.groups ++ [group] } ∧ result.numbers.Nodup := by
  rw [unlessRefused_eq_ok_iff, addGroup_eq_ok_iff]
  constructor
  · rintro ⟨fresh, rfl⟩
    refine ⟨rfl, ?_⟩
    rw [numbers, List.map_append]
    exact distinct.append (List.nodup_singleton _) (List.disjoint_singleton.mpr fresh)
  · rintro ⟨rfl, kept⟩
    rw [numbers, List.map_append] at kept
    exact ⟨fun member => List.disjoint_of_nodup_append kept member List.mem_cons_self, rfl⟩

/-- **Groups are added as they are, in order**, if their numbers then are different. -/
theorem foldlM_addGroup_eq_ok_iff (distinct : scene.numbers.Nodup) {groups : List Group} :
    groups.foldlM (fun scene group => unlessRefused (scene.addGroup group)) scene = .ok result ↔
      result = { scene with groups := scene.groups ++ groups } ∧ result.numbers.Nodup := by
  refine Traversal.foldlM_eq_ok_iff
    (fun (scene : Scene) groups => { scene with groups := scene.groups ++ groups })
    (fun scene : Scene => scene.numbers.Nodup)
    (fun scene => ?_) (fun scene group rest => ?_) (fun scene group rest kept => ?_)
    (fun distinct => addGroup_eq_ok_iff_nodup distinct) distinct
  · rw [List.append_nil]
  · rw [List.append_assoc, List.singleton_append]
  · exact kept.sublist ((List.Sublist.append_left (by simp) _).map _)

/-- The groups and the settings of a scene are read from some stored forms, or are the default. -/
theorem exists_of_readFields (accepted : readFields json = .ok scene) :
    (∃ json, Stored.read json = .ok scene.groups) ∧
      ((∃ json, Stored.read json = .ok scene.config) ∨ scene.config = {}) := by
  obtain ⟨fields, read⟩ := exists_of_readRecord accepted
  obtain ⟨_, config, front, given, rfl⟩ := seq_eq_ok read
  obtain ⟨_, groups, start, listed, rfl⟩ := seq_eq_ok front
  obtain ⟨_, _, rfl⟩ := map_eq_ok start
  refine ⟨exists_of_required listed, ?_⟩
  rcases exists_of_orElse given with found | missing
  · exact .inl found
  · cases missing
    exact .inr rfl

/-- **A scene is read if its fields are and it obeys the rules**, and it is then what its fields
say. -/
theorem read_eq_ok_iff : Stored.read json = .ok scene ↔ readFields json = .ok scene ∧
    scene.WellFormed := by
  have steps : (Stored.read json : Except ReadError Scene) = readFields json >>= fun raw =>
      raw.groups.foldlM (fun scene group => unlessRefused (scene.addGroup group))
        { raw with groups := [] } := rfl
  have empty (raw : Scene) : (numbers { raw with groups := [] }).Nodup := List.nodup_nil
  constructor
  · intro accepted
    refine ⟨?_, (ruled_of_read accepted).wellFormed⟩
    rw [steps, Traversal.bind_eq_ok_iff] at accepted
    obtain ⟨raw, read, folded⟩ := accepted
    obtain ⟨same, _⟩ := (foldlM_addGroup_eq_ok_iff (empty raw)).mp folded
    cases same
    exact read
  · rintro ⟨read, rules⟩
    rw [steps, Traversal.bind_eq_ok_iff]
    exact ⟨scene, read, (foldlM_addGroup_eq_ok_iff (empty scene)).mpr ⟨rfl, rules.distinct⟩⟩

theorem recovers (rules : scene.WellFormed) (fits : scene.Fits) : Recovers scene := by
  have info := recovers_info scene.info
  have groups : Recovers scene.groups := recovers_list fun group member =>
    Group.recovers (rules.groups group member) (fits.scripts group member)
  have config := recovers_config fits.passes
  refine read_eq_ok_iff.mpr ⟨?_, rules⟩
  exact readRecord_object
    (seq_ok (seq_ok (map_ok Scene.mk (orElse_of_single rfl info)) (orElse_of_single rfl groups))
      (orElse_of_single rfl config))

/-- **Numbers that were read fit.** -/
theorem fits_of_read (accepted : Stored.read json = .ok scene) : scene.Fits := by
  obtain ⟨⟨_, readGroups⟩, settings⟩ := exists_of_readFields (read_eq_ok_iff.mp accepted).1
  refine ⟨fun group member => ?_, ?_⟩
  · obtain ⟨_, readGroup⟩ := exists_of_mem_read readGroups member
    exact Group.fits_of_read readGroup
  · rcases settings with ⟨_, readConfig⟩ | unset
    · exact AssemblyConfig.fits_of_read readConfig
    · rw [unset]
      exact fun passes given => nomatch given

/-- **The stored form of a scene is read back exactly** if the scene obeys the rules and its numbers
fit. A stored group or scene is read only if it obeys the rules, and it is then what its fields say,
with nothing changed, left out or reordered. -/
theorem read_write_iff (scene : Scene) :
    (Stored.read (Stored.write scene) = .ok scene ↔ scene.WellFormed ∧ scene.Fits) ∧
    (∀ (json : Json) (group : Group),
      Stored.read json = .ok group ↔ Group.readFields json = .ok group ∧ group.WellFormed) ∧
    ∀ (json : Json) (other : Scene),
      Stored.read json = .ok other ↔ readFields json = .ok other ∧ other.WellFormed := by
  refine ⟨⟨fun accepted => ?_, fun ⟨rules, fits⟩ => recovers rules fits⟩,
    fun _ _ => Group.read_eq_ok_iff, fun _ _ => read_eq_ok_iff⟩
  exact ⟨(read_eq_ok_iff.mp accepted).2, fits_of_read accepted⟩

end Scene

end SceneScript
