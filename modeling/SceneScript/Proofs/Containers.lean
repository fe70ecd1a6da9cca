/-
**Groups and scenes: what each function leaves.**

A script is found in its group, and a group in its scene, as the first with its number; what is then
changed is the item at that place. Every function of groups and scenes is described by what it does
to the list of items:

* `located`: the item with a number and its place are found together, or there is none;
* `found_of_listed`, `findIdx?_iff_listed`: if the numbers are different, every item is found at its
  own place;
* `Group.add_eq_ok_iff`, `Scene.addGroup_eq_ok_iff`: an item is added behind the others if its
  number is new, and to a group only if there is room;
* `Group.removeScript_eq_ok`, `Group.modify_eq_ok`, `Group.edit?_eq_some`,
  `Scene.removeGroup_eq_ok`: one item is taken out or replaced;
* `Group.atomic_add`, `Group.atomic_modify`, `Scene.atomic_loadScript` and the like: a function that
  refuses leaves what it was called on as it was (`Atomic`);
* `map_eq_of_forall₂`, `forall_mem_of_forall₂`: what related items have in common, in order;
* `Group.finalize_of_found`, `Group.finalize_of_missing`: a build reports what the assembler does,
  and records the length or forgets it.
-/

import SceneScript.Scene
import Mathlib.Data.List.Forall2
import Mathlib.Data.List.Nodup

namespace SceneScript

/-! ### Answers -/

/-- The answers of a function that leaves its state as it was if it refuses. -/
inductive Atomic {ε α σ : Type} (state : σ) : Except ε α × σ → Prop
  | accepted {given : α} {changed : σ} : Atomic state (.ok given, changed)
  | refused {cause : ε} : Atomic state (.error cause, state)

namespace Atomic

variable {ε α σ : Type} {state : σ} {answer : Except ε α × σ}

theorem snd_eq (atomic : Atomic state answer) {cause : ε} (refused : answer.1 = .error cause) :
    answer.2 = state := by
  cases atomic with
  | accepted => cases refused
  | refused => rfl

/-- What holds of a state holds of what is left, if it holds of all that is accepted. -/
theorem keeps (kept : σ → Prop) (atomic : Atomic state answer) (before : kept state)
    (accepted : ∀ {given changed}, answer = (.ok given, changed) → kept changed) :
    kept answer.2 := by
  cases atomic with
  | accepted => exact accepted rfl
  | refused => exact before

theorem mapError {ε' : Type} (f : ε → ε') (atomic : Atomic state answer) :
    Atomic state (answer.1.mapError f, answer.2) := by
  cases atomic with
  | accepted => exact .accepted
  | refused => exact .refused

end Atomic

/-! ### Lists of numbered items -/

section Items

variable {α : Type} {items others : List α} {place : Nat} {item other : α}

/-- **The first item with a number and its place are found together**, or there is none. -/
theorem located (key : α → UInt8) (items : List α) (number : UInt8) :
    (items.findIdx? (key · == number) = none ∧ items.find? (key · == number) = none ∧
      number ∉ items.map key) ∨
    ∃ place item, items.findIdx? (key · == number) = some place ∧
      items.find? (key · == number) = some item ∧ items[place]? = some item ∧
      key item = number := by
  have together : items.find? (key · == number) =
      (items.findIdx? (key · == number)).bind fun place => items[place]? :=
    List.find?_eq_bind_findIdx?_getElem?
  cases found : items.findIdx? (key · == number) with
  | none =>
    rw [found] at together
    refine .inl ⟨rfl, together, fun member => ?_⟩
    obtain ⟨item, among, same⟩ := List.mem_map.mp member
    have apart := List.findIdx?_eq_none_iff.mp found item among
    rw [same, beq_self_eq_true] at apart
    cases apart
  | some place =>
    obtain ⟨inside, matched, _⟩ := List.findIdx?_eq_some_iff_getElem.mp found
    have listed := List.getElem?_eq_getElem inside
    rw [found, Option.bind_some, listed] at together
    exact .inr ⟨place, items[place], rfl, together, listed, eq_of_beq matched⟩

/-- If an item is found under a number, the number is among those of the items. -/
theorem find?_isSome_iff (key : α → UInt8) (items : List α) (number : UInt8) :
    (items.find? (key · == number)).isSome = true ↔ number ∈ items.map key := by
  rcases located key items number with ⟨_, missing, absent⟩ | ⟨_, item, _, found, listed, rfl⟩
  · simp [missing, absent]
  · rw [found]
    exact iff_of_true rfl (List.mem_map_of_mem (List.mem_of_getElem? listed))

/-- Among items with different numbers, each is found under its number at its own place. -/
theorem found_of_listed (key : α → UInt8) (distinct : (items.map key).Nodup)
    (listed : items[place]? = some item) :
    items.findIdx? (key · == key item) = some place ∧
      items.find? (key · == key item) = some item := by
  have here : (items.map key)[place]? = some (key item) := by
    rw [List.getElem?_map, listed]
    rfl
  rcases located key items (key item) with ⟨_, _, absent⟩ | ⟨other, _, first, found, listed', same⟩
  · exact absurd (List.mem_of_getElem? here) absent
  · have there : (items.map key)[other]? = some (key item) := by
      rw [List.getElem?_map, listed', Option.map_some, same]
    obtain ⟨inside, _⟩ := List.getElem?_eq_some_iff.mp here
    obtain rfl := (List.getElem?_inj inside distinct).mp (here.trans there.symm)
    rw [listed] at listed'
    cases listed'
    exact ⟨first, found⟩

/-- Among items with different numbers, a number is found at the place where its item is listed. -/
theorem findIdx?_iff_listed (key : α → UInt8) (distinct : (items.map key).Nodup) {number : UInt8} :
    items.findIdx? (key · == number) = some place ↔
      ∃ item, items[place]? = some item ∧ key item = number := by
  constructor
  · intro found
    rcases located key items number with ⟨missing, _, _⟩ | ⟨_, item, found', _, listed, named⟩
    · rw [missing] at found
      cases found
    · rw [found] at found'
      cases found'
      exact ⟨item, listed, named⟩
  · rintro ⟨item, listed, rfl⟩
    exact (found_of_listed key distinct listed).1

theorem modify_eq_set (listed : items[place]? = some item) (f : α → α) :
    items.modify place f = items.set place (f item) := by
  rw [List.modify_eq_set_getElem?, listed]
  rfl

theorem set_eq_self (listed : items[place]? = some item) : items.set place item = items := by
  obtain ⟨inside, rfl⟩ := List.getElem?_eq_some_iff.mp listed
  exact List.set_getElem_self inside

/-- Replacing an item by one with the same number keeps the numbers. -/
theorem map_set_eq {key : α → UInt8} (listed : items[place]? = some item)
    (same : key other = key item) : (items.set place other).map key = items.map key := by
  rw [List.map_set, same]
  refine set_eq_self ?_
  rw [List.getElem?_map, listed]
  rfl

/-- Replacing one item by a related one gives a related list. -/
theorem forall₂_set {related : α → α → Prop} (same : ∀ item, related item item)
    (listed : items[place]? = some item) (step : related item other) :
    List.Forall₂ related items (items.set place other) := by
  refine List.forall₂_iff_get.mpr ⟨List.length_set.symm, fun index inside inside' => ?_⟩
  simp only [List.get_eq_getElem, List.getElem_set]
  by_cases here : place = index
  · subst here
    rw [List.getElem?_eq_getElem inside] at listed
    cases listed
    simpa using step
  · simpa [here] using same _

/-- Items that are related in order have the same numbers, if related items have. -/
theorem map_eq_of_forall₂ {key : α → UInt8} {related : α → α → Prop}
    (same : ∀ {item other}, related item other → key other = key item)
    (each : List.Forall₂ related items others) : others.map key = items.map key := by
  induction each with
  | nil => rfl
  | cons step _ ih => rw [List.map_cons, List.map_cons, same step, ih]

/-- What holds of all items holds of those that are related to them in order, if each step keeps
it. -/
theorem forall_mem_of_forall₂ {kept : α → Prop} {related : α → α → Prop}
    (step : ∀ {item other}, related item other → kept item → kept other)
    (each : List.Forall₂ related items others) (before : ∀ item ∈ items, kept item) :
    ∀ other ∈ others, kept other := by
  induction each with
  | nil => exact fun _ member => nomatch member
  | cons first _ ih =>
    rw [List.forall_mem_cons] at before ⊢
    exact ⟨step first before.1, ih before.2⟩

end Items

/-! ### Groups -/

namespace Group

/-- The numbers of the scripts of a group, in order. -/
def numbers (group : Group) : List UInt8 := group.entries.map (·.script.id)

variable {group changed : Group} {script : UInt8} {entry : ScriptEntry} {place : Nat}

/-- **A script is found at a place of its group**, or the group has none with its number. -/
theorem located (group : Group) (script : UInt8) :
    (group.place? script = none ∧ group.entry? script = none ∧ script ∉ group.numbers) ∨
      ∃ place entry, group.place? script = some place ∧ group.entry? script = some entry ∧
        group.entries[place]? = some entry ∧ entry.script.id = script :=
  SceneScript.located (fun entry : ScriptEntry => entry.script.id) group.entries script

/-- **A script is added behind the others** if its number is new and there is room. -/
theorem add_eq_ok_iff :
    group.add entry = (.ok (), changed) ↔
      entry.script.id ∉ group.numbers ∧ group.entries.length < maxGroupScripts ∧
        changed = { group with entries := group.entries ++ [entry] } := by
  have known : (group.entry? entry.script.id).isSome = true ↔ entry.script.id ∈ group.numbers :=
    find?_isSome_iff (fun entry : ScriptEntry => entry.script.id) group.entries entry.script.id
  unfold add
  by_cases taken : entry.script.id ∈ group.numbers
  · simp [known, taken]
  · by_cases full : maxGroupScripts ≤ group.entries.length
    · simp [known, taken, full, Nat.not_lt.mpr full]
    · simp [known, taken, full, Nat.lt_of_not_le full, eq_comm]

/-- A script is taken out of its group. -/
theorem removeScript_eq_ok {removed : Script}
    (accepted : group.removeScript script = (.ok removed, changed)) :
    ∃ place, changed = { group with entries := group.entries.eraseIdx place } := by
  unfold removeScript at accepted
  split at accepted
  · next place entry _ _ =>
    cases accepted
    exact ⟨place, rfl⟩
  · cases accepted

/-- The entry of a script is replaced. -/
theorem modify_eq_ok {f : ScriptEntry → ScriptEntry}
    (accepted : group.modify script f = (.ok (), changed)) :
    ∃ place entry, group.entries[place]? = some entry ∧
      changed = { group with entries := group.entries.set place (f entry) } := by
  unfold modify at accepted
  rcases group.located script with ⟨missing, _, _⟩ | ⟨place, entry, found, _, listed, _⟩
  · rw [missing] at accepted
    cases accepted
  · rw [found] at accepted
    cases accepted
    exact ⟨place, entry, listed, by rw [modify_eq_set listed]⟩

/-- The entry of an edited script is replaced. -/
theorem edit?_eq_some {α : Type} {f : Script → α × Script} {result : α}
    (accepted : group.edit? script f = some (result, changed)) :
    ∃ place entry, group.entries[place]? = some entry ∧ entry.script.id = script ∧
      changed = { group with
        entries := group.entries.set place
          { entry with script := (f entry.script).2, builtLength := none } } := by
  unfold edit? at accepted
  rcases group.located script with ⟨missing, _, _⟩ | ⟨place, entry, found, found', listed, named⟩
  · rw [missing] at accepted
    cases accepted
  · rw [found, found'] at accepted
    cases accepted
    exact ⟨place, entry, listed, named, rfl⟩

/-! What a group refuses leaves it as it was. -/

theorem atomic_add (group : Group) (entry : ScriptEntry) : Atomic group (group.add entry) := by
  unfold add
  split
  · exact .refused
  · split
    · exact .refused
    · exact .accepted

theorem atomic_removeScript (group : Group) (script : UInt8) :
    Atomic group (group.removeScript script) := by
  unfold removeScript
  split
  · exact .accepted
  · exact .refused

theorem atomic_modify (group : Group) (script : UInt8) (f : ScriptEntry → ScriptEntry) :
    Atomic group (group.modify script f) := by
  unfold modify
  split
  · exact .accepted
  · exact .refused

theorem atomic_setPriority (group : Group) (script level : UInt8) :
    Atomic group (group.setPriority script level) := by
  unfold setPriority
  split
  · exact group.atomic_modify script _
  · exact .refused

/-- **The build of a script** reports what the assembler does, and records the length or forgets
it. -/
theorem finalize_of_found (found : group.place? script = some place)
    (found' : group.entry? script = some entry) (listed : group.entries[place]? = some entry)
    (scene : SceneInfo) (config : AssemblyConfig) :
    group.finalize scene script config =
      (((entry.script.assemble (group.origin scene script) config).map Assembly.bytes).mapError
          .assembly,
        { group with
          entries := group.entries.set place
            { entry with
              builtLength := (entry.script.assemble (group.origin scene script)
                config).toOption.map Assembly.length16 } }) := by
  unfold finalize
  simp only [found, found', modify_eq_set listed]
  generalize entry.script.assemble _ config = assembled
  cases assembled <;> rfl

/-- The build of a script that the group does not have. -/
theorem finalize_of_missing (missing : group.entry? script = none) (scene : SceneInfo)
    (config : AssemblyConfig) :
    group.finalize scene script config =
      (.error (.group (.noSuchScript group.id script)), group) := by
  unfold finalize
  rw [missing]

end Group

/-! ### Scenes -/

namespace Scene

/-- The numbers of the groups of a scene, in order. -/
def numbers (scene : Scene) : List UInt8 := scene.groups.map Group.id

/-- The groups of a scene have different numbers, and so have the scripts of each group. -/
structure Distinct (scene : Scene) : Prop where
  groups : scene.numbers.Nodup
  scripts : ∀ group ∈ scene.groups, group.numbers.Nodup

variable {scene changed : Scene} {number : UInt8} {group : Group} {place : Nat}

/-- **A group is found at a place of its scene**, or the scene has none with its number. -/
theorem located (scene : Scene) (number : UInt8) :
    (scene.place? number = none ∧ scene.group? number = none ∧ number ∉ scene.numbers) ∨
      ∃ place group, scene.place? number = some place ∧ scene.group? number = some group ∧
        scene.groups[place]? = some group ∧ group.id = number :=
  SceneScript.located Group.id scene.groups number

/-- **A group is added behind the others** if its number is new. -/
theorem addGroup_eq_ok_iff :
    scene.addGroup group = (.ok (), changed) ↔
      group.id ∉ scene.numbers ∧ changed = { scene with groups := scene.groups ++ [group] } := by
  have known : (scene.group? group.id).isSome = true ↔ group.id ∈ scene.numbers :=
    find?_isSome_iff Group.id scene.groups group.id
  unfold addGroup
  by_cases taken : group.id ∈ scene.numbers
  · simp [known, taken]
  · simp [known, taken, eq_comm]

/-- A group is taken out of its scene. -/
theorem removeGroup_eq_ok {removed : Group}
    (accepted : scene.removeGroup number = (.ok removed, changed)) :
    ∃ place, changed = { scene with groups := scene.groups.eraseIdx place } := by
  unfold removeGroup at accepted
  split at accepted
  · next place group _ _ =>
    cases accepted
    exact ⟨place, rfl⟩
  · cases accepted

theorem setGroup_of_found (found : scene.place? number = some place) (group : Group) :
    scene.setGroup number group = { scene with groups := scene.groups.set place group } := by
  unfold setGroup
  rw [found]

/-- Putting a group back where it was found changes nothing. -/
theorem setGroup_eq_self (found : scene.group? number = some group) :
    scene.setGroup number group = scene := by
  rcases scene.located number with ⟨_, missing, _⟩ | ⟨place, own, here, found', listed, _⟩
  · rw [missing] at found
    cases found
  · rw [found] at found'
    cases found'
    rw [setGroup_of_found here, set_eq_self listed]

/-! What a scene refuses leaves it as it was. -/

theorem atomic_addGroup (scene : Scene) (group : Group) : Atomic scene (scene.addGroup group) := by
  unfold addGroup
  split
  · exact .refused
  · exact .accepted

theorem atomic_removeGroup (scene : Scene) (number : UInt8) :
    Atomic scene (scene.removeGroup number) := by
  unfold removeGroup
  split
  · exact .accepted
  · exact .refused

/-- A group that refuses is put back as it was. -/
theorem atomic_setGroup {ε α : Type} {answer : Except ε α × Group}
    (found : scene.group? number = some group) (atomic : Atomic group answer) :
    Atomic scene (answer.1, scene.setGroup number answer.2) := by
  cases atomic with
  | accepted => exact .accepted
  | refused =>
    rw [setGroup_eq_self found]
    exact .refused

theorem atomic_loadScript (scene : Scene) (number script : UInt8) (bytes : List UInt8)
    (length : Nat) (priority : Priority) (invocation : Invocation) :
    Atomic scene (scene.loadScript number script bytes length priority invocation) := by
  unfold loadScript
  split
  · exact .refused
  · next decoded _ =>
    split
    · exact .refused
    · next group found =>
      have added := group.atomic_add { script := decoded, priority, invocation }
      exact (atomic_setGroup found added).mapError LoadError.group

/-- The build of a script of a group that is found. -/
theorem finalize_of_found (found : scene.group? number = some group) (script : UInt8) :
    scene.finalize number script =
      ((group.finalize scene.info script scene.config).1,
        scene.setGroup number (group.finalize scene.info script scene.config).2) := by
  unfold finalize
  rw [found]

end Scene

end SceneScript
