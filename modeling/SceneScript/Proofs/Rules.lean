/-
**The rules of groups and scenes.**

The groups of a scene have different numbers, and so have the scripts of a group; a group holds at
most 32 scripts, and priorities go from 1 to 6 (`Scene.WellFormed`). Adding checks these rules, and
so does reading a stored scene, which adds item by item. So they hold in every scene that operations
can lead to, as long as no edit gives a script another number.

* `Group.WellFormed.apply`: operations that keep the numbers of scripts keep the rules of a group;
* `Group.wellFormed_of_read`, `Scene.ruled_of_read`: what is read obeys the rules;
* `Scene.run_wellFormed`: the rules hold after every sequence of operations, and an operation that
  is refused changes nothing.
-/

import SceneScript.Proofs.Operations
import SceneScript.Proofs.Traversal
import SceneScript.Stored.Model

namespace SceneScript

/-- Scripts with one number. -/
def Script.SameNumber (script edited : Script) : Prop := edited.id = script.id

/-! ### Groups -/

namespace Group

/-- The rules of a group. -/
structure WellFormed (group : Group) : Prop where
  distinct : group.numbers.Nodup
  room : group.entries.length ≤ 32
  levels : ∀ entry ∈ group.entries, 1 ≤ entry.priority.level ∧ entry.priority.level ≤ 6

variable {group changed : Group}

/-- Priorities are valid by themselves, so that two rules remain to be checked. -/
theorem wellFormed_iff : group.WellFormed ↔ group.numbers.Nodup ∧ group.entries.length ≤ 32 :=
  ⟨fun rules => ⟨rules.distinct, rules.room⟩,
    fun ⟨distinct, room⟩ => ⟨distinct, room, fun entry _ => entry.priority.valid⟩⟩

theorem wellFormed_new (id : UInt8) (name : String) : Group.WellFormed { id, name } :=
  wellFormed_iff.mpr ⟨List.nodup_nil, Nat.zero_le 32⟩

/-- A script with a new number can join a group that has room. -/
theorem WellFormed.append (rules : group.WellFormed) {entry : ScriptEntry}
    (fresh : entry.script.id ∉ group.numbers) (room : group.entries.length < maxGroupScripts) :
    WellFormed { group with entries := group.entries ++ [entry] } := by
  refine wellFormed_iff.mpr ⟨?_, ?_⟩
  · rw [numbers, List.map_append]
    exact rules.distinct.append (List.nodup_singleton _) (List.disjoint_singleton.mpr fresh)
  · rw [List.length_append]
    exact room

theorem WellFormed.change (rules : group.WellFormed)
    (change : group.Change Script.SameNumber changed) : changed.WellFormed := by
  cases change with
  | added _ fresh room => exact rules.append fresh room
  | removed place =>
    have fewer := List.eraseIdx_sublist group.entries place
    exact wellFormed_iff.mpr ⟨rules.distinct.sublist (fewer.map _),
      Nat.le_trans fewer.length_le rules.room⟩
  | @updated place entry changed listed step =>
    have number : changed.script.id = entry.script.id := by
      cases step with
      | arranged => rfl
      | edited same => exact same
      | built => rfl
    refine wellFormed_iff.mpr ⟨?_, ?_⟩
    · rw [numbers, map_set_eq listed number]
      exact rules.distinct
    · rw [List.length_set]
      exact rules.room

/-- **Operations that keep the numbers of scripts keep the rules of a group.** -/
theorem WellFormed.apply (rules : group.WellFormed) {operation : Operation}
    (meets : operation.Meets Script.SameNumber) : (group.apply operation).2.WellFormed :=
  (group.changes_apply meets).keeps WellFormed (fun change rules => rules.change change) rules

end Group

/-! ### Reading -/

namespace Stored

variable {α β : Type}

theorem finish_eq_ok {fields : Fields} {result : FieldRead α} {value : α}
    (accepted : fields.finish result = .ok value) : result = .ok value := by
  unfold Fields.finish at accepted
  split at accepted
  · cases accepted
  · split at accepted
    · cases accepted
    · cases accepted
      rfl

theorem seq_eq_ok {f : FieldRead (α → β)} {field : FieldRead α} {result : β}
    (accepted : f <*> field = .ok result) :
    ∃ g value, f = .ok g ∧ field = .ok value ∧ result = g value := by
  cases f <;> cases field <;> cases accepted
  exact ⟨_, _, rfl, rfl, rfl⟩

theorem map_eq_ok {g : α → β} {field : FieldRead α} {result : β}
    (accepted : g <$> field = .ok result) : ∃ value, field = .ok value ∧ result = g value := by
  cases field <;> cases accepted
  exact ⟨_, rfl, rfl⟩

/-- A record is read from the fields that it is given as. -/
theorem exists_of_readRecord {names : List String} {read : Fields → FieldRead α} {json : Json}
    {value : α} (accepted : readRecord names read json = .ok value) :
    ∃ fields, read fields = .ok value := by
  unfold readRecord at accepted
  split at accepted
  · exact ⟨_, finish_eq_ok accepted⟩
  · unfold readObject at accepted
    split at accepted
    · exact ⟨_, finish_eq_ok accepted⟩
    · cases accepted

/-- A field is read from some stored form, or is missing and has another value. -/
theorem exists_of_orElse [Stored α] {fields : Fields} {name : String} {otherwise : FieldRead α}
    {value : α} (accepted : fields.orElse name otherwise = .ok value) :
    (∃ json, Stored.read json = .ok value) ∨ otherwise = .ok value := by
  unfold Fields.orElse at accepted
  split at accepted
  · next own found =>
    cases accepted
    unfold Fields.lookup at found
    split at found
    · cases found
    · next key json place others _ =>
      split at found
      · cases found
      · next read _ =>
        cases found
        exact .inl ⟨json, read⟩
      · cases found
  · exact .inr accepted
  · cases accepted

theorem exists_of_required [Stored α] {fields : Fields} {name : String} {value : α}
    (accepted : fields.required name = .ok value) : ∃ json, Stored.read json = .ok value := by
  rcases exists_of_orElse accepted with read | missing
  · exact read
  · cases missing

/-- The items of a list are read one by one. -/
theorem exists_of_mem_read [Stored α] {json : Json} {items : List α}
    (accepted : Stored.read json = .ok items) {item : α} (member : item ∈ items) :
    ∃ json', Stored.read json' = .ok item := by
  cases json with
  | array stored =>
    have read : stored.mapM Stored.read = .ok items := accepted
    have related := Traversal.mapM_eq_ok_iff.mp read
    obtain ⟨index, inside, rfl⟩ := List.getElem_of_mem member
    have inside' : index < stored.length := related.length_eq ▸ inside
    exact ⟨_, related.get inside' inside⟩
  | _ => cases accepted

theorem unlessRefused_eq_ok_iff {answer : Except GroupError Unit × α} {state : α} :
    unlessRefused answer = .ok state ↔ answer = (.ok (), state) := by
  obtain ⟨reply, left⟩ := answer
  cases reply <;> simp [unlessRefused]

end Stored

/-- **A group that is read obeys the rules.** -/
theorem Group.wellFormed_of_read {json : Json} {group : Group}
    (accepted : Stored.read json = .ok group) : group.WellFormed := by
  obtain ⟨raw, _, folded⟩ := Traversal.bind_eq_ok_iff.mp accepted
  refine Traversal.foldlM_keeps Group.WellFormed ?_ folded (wellFormed_new raw.id raw.name)
  intro group changed entry _ added rules
  obtain ⟨fresh, room, rfl⟩ := Group.add_eq_ok_iff.mp (Stored.unlessRefused_eq_ok_iff.mp added)
  exact rules.append fresh room

/-- Groups that a caller can have: new ones, those that were read, and what operations leave of
them that keep the numbers of scripts. -/
inductive Group.Made : Group → Prop
  | new (id : UInt8) (name : String) : Made { id, name }
  | read {json : Json} {group : Group} : Stored.read json = .ok group → Made group
  | applied {group : Group} {operation : Group.Operation} : Made group →
      operation.Meets Script.SameNumber → Made (group.apply operation).2

theorem Group.Made.wellFormed {group : Group} (made : group.Made) : group.WellFormed := by
  induction made with
  | new id name => exact wellFormed_new id name
  | read accepted => exact wellFormed_of_read accepted
  | applied _ meets rules => exact rules.apply meets

/-! ### Scenes -/

namespace Scene

/-- The rules of a scene. -/
structure WellFormed (scene : Scene) : Prop where
  distinct : scene.numbers.Nodup
  groups : ∀ group ∈ scene.groups, group.WellFormed

/-- A scene before the first operation: a new one, or one that was read. -/
inductive Original : Scene → Prop
  | new (info : SceneInfo) : Original { info }
  | read {json : Json} {scene : Scene} : Stored.read json = .ok scene → Original scene

/-- A scene of groups that a caller can have, with different numbers. -/
structure Ruled (scene : Scene) : Prop where
  distinct : scene.numbers.Nodup
  made : ∀ group ∈ scene.groups, group.Made

theorem Ruled.wellFormed {scene : Scene} (ruled : scene.Ruled) : scene.WellFormed :=
  ⟨ruled.distinct, fun group member => (ruled.made group member).wellFormed⟩

/-- Operations that add groups as a caller can have them and keep the numbers of scripts lead to
such groups again. -/
theorem Ruled.change {scene changed : Scene} (ruled : scene.Ruled)
    (change : scene.Change Group.Made Script.SameNumber changed) : changed.Ruled :=
  ⟨change.nodup_numbers ruled.distinct,
    change.forall_groups (fun _ made => made) (fun _ _ meets made => made.applied meets)
      ruled.made⟩

/-- **A scene that is read obeys the rules.** -/
theorem ruled_of_read {json : Json} {scene : Scene} (accepted : Stored.read json = .ok scene) :
    scene.Ruled := by
  obtain ⟨raw, record, folded⟩ := Traversal.bind_eq_ok_iff.mp accepted
  obtain ⟨fields, read⟩ := Stored.exists_of_readRecord record
  obtain ⟨_, _, front, _, rfl⟩ := Stored.seq_eq_ok read
  obtain ⟨_, groups, start, listed, rfl⟩ := Stored.seq_eq_ok front
  obtain ⟨_, _, rfl⟩ := Stored.map_eq_ok start
  obtain ⟨stored, readGroups⟩ := Stored.exists_of_required listed
  refine Traversal.foldlM_keeps Ruled ?_ folded
    ⟨List.nodup_nil, fun group member => absurd member List.not_mem_nil⟩
  intro scene changed group member added ruled
  obtain ⟨fresh, rfl⟩ := addGroup_eq_ok_iff.mp (Stored.unlessRefused_eq_ok_iff.mp added)
  obtain ⟨own, readGroup⟩ := Stored.exists_of_mem_read readGroups member
  exact ruled.change (.joined (.read readGroup) fresh rfl)

theorem Original.ruled {scene : Scene} (original : scene.Original) : scene.Ruled := by
  cases original with
  | new info => exact ⟨List.nodup_nil, fun group member => absurd member List.not_mem_nil⟩
  | read accepted => exact ruled_of_read accepted

/-- **The rules hold after every sequence of operations** that starts from a new scene or from one
that was read, adds groups as a caller can have them, and keeps the numbers of scripts. What then
stands in the scene are such groups again. An operation that is refused, unless it is a build,
leaves the scene as it was. -/
theorem run_wellFormed {scene : Scene} (original : scene.Original) {operations : List Operation}
    (meet : ∀ operation ∈ operations, operation.Meets Group.Made Script.SameNumber) :
    (scene.run operations).WellFormed ∧
      (∀ group ∈ (scene.run operations).groups, group.Made) ∧
      ∀ (operation : Operation) (cause : Refusal), operation.builds = false →
        ((scene.run operations).apply operation).1 = .error cause →
        ((scene.run operations).apply operation).2 = scene.run operations := by
  have ruled : (scene.run operations).Ruled :=
    run_keeps Ruled (fun scene _ meets ruled => ruled.change (scene.change_apply meets)) meet
      original.ruled
  exact ⟨ruled.wellFormed, ruled.made,
    fun _ _ still refused => (atomic_apply _ still).snd_eq refused⟩

/-- A new scene gets two groups and loses one of them; the other gets a script that is then edited,
and refuses a second script with the same number. -/
def visits : List Operation :=
  [.addGroup { id := 3, name := "door" }, .addGroup { id := 5, name := "npc" },
    .within 3 (.addScript { id := 7 } .highest .asyncWait),
    .within 3 (.edit 7 fun script => { script with instructions := [.nop, .ret] }),
    .within 3 (.addScript { id := 7 } .highest .syncWait),
    .within 3 (.addScript { id := 8 } .highest .syncWait), .removeGroup 5]

theorem run_wellFormed_visits :
    let left := Scene.run { info := { id := 1, name := "yard" } } visits
    left.numbers = [3] ∧ left.groups.map Group.numbers = [[7, 8]] ∧ left.WellFormed ∧
      (left.apply (.within 3 (.setPriority 7 9))).1 = .error (.group (.invalidPriority 9)) ∧
      (left.apply (.within 3 (.setPriority 7 9))).2 = left := by
  have meet : ∀ operation ∈ visits, operation.Meets Group.Made Script.SameNumber := by
    intro operation member
    simp only [visits, List.mem_cons, List.not_mem_nil, or_false] at member
    rcases member with rfl | rfl | rfl | rfl | rfl | rfl | rfl
    · exact .new 3 "door"
    · exact .new 5 "npc"
    · trivial
    · exact fun _ => rfl
    · trivial
    · trivial
    · trivial
  obtain ⟨rules, _, refuses⟩ := run_wellFormed (.new { id := 1, name := "yard" }) meet
  have refused : ((Scene.run { info := { id := 1, name := "yard" } } visits).apply
      (.within 3 (.setPriority 7 9))).1 = .error (.group (.invalidPriority 9)) := by
    decide +kernel
  exact ⟨by decide +kernel, by decide +kernel, rules, refused, refuses _ _ rfl refused⟩

end Scene

end SceneScript
