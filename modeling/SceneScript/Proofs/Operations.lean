/-
**Operations on a scene, one after the other.**

What a caller can do to a scene is an `Operation`: a call on the scene itself, or one on a group of
it (`Scene.Operation.within`). `Scene.apply` gives the reply to an operation and the scene that it
leaves, and `Scene.run` what a sequence of them leaves.

* `Group.changes_apply`: an operation on a group adds an entry with a new number, takes one out, or
  changes entries one at a time, and says what can happen to an entry (`ScriptEntry.Change`);
* `Scene.change_apply`: an operation on a scene adds a group with a new number, takes one out, or
  leaves each group as an operation on groups would (`Group.Evolves`);
* `Group.atomic_apply`, `Scene.atomic_apply`: an operation that is refused leaves the group or the
  scene as it was, unless it is a build;
* `Scene.run_keeps`: what every operation keeps, every sequence of them keeps.
-/

import SceneScript.Proofs.Containers
import Mathlib.Logic.Relation

namespace SceneScript

/-- Why an operation on a scene was refused. -/
inductive Refusal where
  | group (cause : GroupError)
  | load (cause : LoadError)
  | build (cause : BuildError)
deriving DecidableEq

/-- An answer with what it gives left out, and its refusal put among all refusals. -/
def answered {ε α σ : Type} (refusal : ε → Refusal) (answer : Except ε α × σ) :
    Except Refusal Unit × σ :=
  ((answer.1.map fun _ => ()).mapError refusal, answer.2)

theorem Atomic.answered {ε α σ : Type} {state : σ} {answer : Except ε α × σ}
    (atomic : Atomic state answer) (refusal : ε → Refusal) :
    Atomic state (answered refusal answer) := by
  cases atomic with
  | accepted => exact .accepted
  | refused => exact .refused

/-! ### Operations on a group -/

namespace Group

/-- What a caller can do to a group. -/
inductive Operation where
  | addScript (script : Script) (priority : Priority) (invocation : Invocation)
  | removeScript (script : UInt8)
  | setPriority (script level : UInt8)
  | setInvocation (script : UInt8) (invocation : Invocation)
  /-- Any change to a script, its number included. -/
  | edit (script : UInt8) (change : Script → Script)
  | finalize (scene : SceneInfo) (script : UInt8) (config : AssemblyConfig)
  | compileAll (scene : SceneInfo) (config : AssemblyConfig)

/-- Whether an operation builds scripts. -/
def Operation.builds : Operation → Bool
  | .finalize .. | .compileAll .. => true
  | _ => false

/-- An operation whose edits of scripts are as given. -/
def Operation.Meets (edits : Script → Script → Prop) : Operation → Prop
  | .edit _ change => ∀ script, edits script (change script)
  | _ => True

/-- The reply to an operation, and the group that it leaves. -/
def apply (group : Group) : Operation → Except Refusal Unit × Group
  | .addScript script priority invocation =>
    answered .group (group.addScript script priority invocation)
  | .removeScript script => answered .group (group.removeScript script)
  | .setPriority script level => answered .group (group.setPriority script level)
  | .setInvocation script invocation => answered .group (group.setInvocation script invocation)
  | .edit script change =>
    match group.edit? script fun before => ((), change before) with
    | some ((), edited) => (.ok (), edited)
    | none => (.error (.group (.noSuchScript group.id script)), group)
  | .finalize scene script config => answered .build (group.finalize scene script config)
  | .compileAll scene config => (.ok (), (group.compileAll scene config).2)

end Group

/-- What an operation can do to an entry of a group, if edits of scripts are as given. -/
inductive ScriptEntry.Change (edits : Script → Script → Prop) (entry : ScriptEntry) :
    ScriptEntry → Prop
  | arranged (priority : Priority) (invocation : Invocation) :
      Change edits entry { entry with priority, invocation }
  | edited {script : Script} : edits entry.script script →
      Change edits entry { entry with script, builtLength := none }
  | built (origin : Origin) (config : AssemblyConfig) :
      Change edits entry { entry with
        builtLength := (entry.script.assemble origin config).toOption.map Assembly.length16 }

namespace Group

/-- What an operation can do to a group at a time. -/
inductive Change (edits : Script → Script → Prop) (group : Group) : Group → Prop
  | added {entry : ScriptEntry} : entry.builtLength = none → entry.script.id ∉ group.numbers →
      group.entries.length < maxGroupScripts →
      Change edits group { group with entries := group.entries ++ [entry] }
  | removed (place : Nat) :
      Change edits group { group with entries := group.entries.eraseIdx place }
  | updated {place : Nat} {entry changed : ScriptEntry} : group.entries[place]? = some entry →
      entry.Change edits changed →
      Change edits group { group with entries := group.entries.set place changed }

/-- What an operation can do to a group: any number of changes. -/
abbrev Changes (edits : Script → Script → Prop) : Group → Group → Prop :=
  Relation.ReflTransGen (Change edits)

variable {edits : Script → Script → Prop} {group changed : Group}

/-- What a change keeps, an operation keeps. -/
theorem Changes.keeps (kept : Group → Prop)
    (step : ∀ {group changed}, group.Change edits changed → kept group → kept changed)
    (changes : group.Changes edits changed) (start : kept group) : kept changed := by
  induction changes with
  | refl => exact start
  | tail _ change ih => exact step change ih

theorem Changes.id_eq (changes : group.Changes edits changed) : changed.id = group.id := by
  refine changes.keeps (fun other => other.id = group.id) (fun change same => ?_) rfl
  cases change <;> exact same

theorem changes_addScript (group : Group) (script : Script) (priority : Priority)
    (invocation : Invocation) :
    group.Changes edits (group.addScript script priority invocation).2 := by
  refine (group.atomic_add _).keeps (group.Changes edits) .refl fun accepted => ?_
  obtain ⟨fresh, room, rfl⟩ := add_eq_ok_iff.mp accepted
  exact .single (.added rfl fresh room)

theorem changes_removeScript (group : Group) (script : UInt8) :
    group.Changes edits (group.removeScript script).2 := by
  refine (group.atomic_removeScript script).keeps (group.Changes edits) .refl fun accepted => ?_
  obtain ⟨place, rfl⟩ := removeScript_eq_ok accepted
  exact .single (.removed place)

theorem changes_modify (group : Group) (script : UInt8) {f : ScriptEntry → ScriptEntry}
    (each : ∀ entry : ScriptEntry, entry.Change edits (f entry)) :
    group.Changes edits (group.modify script f).2 := by
  refine (group.atomic_modify script f).keeps (group.Changes edits) .refl fun accepted => ?_
  obtain ⟨place, entry, listed, rfl⟩ := modify_eq_ok accepted
  exact .single (.updated listed (each entry))

theorem changes_setPriority (group : Group) (script level : UInt8) :
    group.Changes edits (group.setPriority script level).2 := by
  unfold setPriority
  split
  · next priority _ =>
    exact group.changes_modify script fun entry => .arranged priority entry.invocation
  · exact .refl

theorem changes_finalize (group : Group) (scene : SceneInfo) (script : UInt8)
    (config : AssemblyConfig) : group.Changes edits (group.finalize scene script config).2 := by
  rcases group.located script with ⟨_, missing, _⟩ | ⟨place, entry, found, found', listed, _⟩
  · rw [finalize_of_missing missing]
  · rw [finalize_of_found found found' listed]
    exact .single (.updated listed (.built _ config))

/-- One step of building all scripts leaves what the build of that script leaves. -/
theorem compileNext_snd (scene : SceneInfo) (config : AssemblyConfig)
    (state : List ScriptOutcome × Group) (script : UInt8) :
    (compileNext scene config state script).2 = (state.2.finalize scene script config).2 := by
  obtain ⟨outcomes, group⟩ := state
  rcases outcome : group.finalize scene script config with ⟨result, built⟩
  cases result with
  | ok bytes => simp only [compileNext, outcome]
  | error cause => cases cause <;> simp only [compileNext, outcome]

theorem changes_compileAll (group : Group) (scene : SceneInfo) (config : AssemblyConfig) :
    group.Changes edits (group.compileAll scene config).2 := by
  have run : ∀ (scripts : List UInt8) (state : List ScriptOutcome × Group),
      state.2.Changes edits (scripts.foldl (compileNext scene config) state).2 := by
    intro scripts
    induction scripts with
    | nil => exact fun _ => .refl
    | cons script scripts ih =>
      intro state
      refine Relation.ReflTransGen.trans ?_ (ih _)
      rw [compileNext_snd]
      exact changes_finalize state.2 scene script config
  exact run _ ([], group)

/-- **What an operation can do to a group.** -/
theorem changes_apply (group : Group) {operation : Operation} (meets : operation.Meets edits) :
    group.Changes edits (group.apply operation).2 := by
  cases operation with
  | addScript script priority invocation =>
    exact group.changes_addScript script priority invocation
  | removeScript script => exact group.changes_removeScript script
  | setPriority script level => exact group.changes_setPriority script level
  | setInvocation script invocation =>
    exact group.changes_modify script fun entry => .arranged entry.priority invocation
  | edit script change =>
    simp only [apply]
    split
    · next edited found =>
      obtain ⟨place, entry, listed, _, rfl⟩ := edit?_eq_some found
      exact .single (.updated listed (.edited (meets entry.script)))
    · exact .refl
  | finalize scene script config => exact changes_finalize group scene script config
  | compileAll scene config => exact changes_compileAll group scene config

/-- **An operation on a group that is refused leaves the group as it was**, unless it is a build. -/
theorem atomic_apply (group : Group) {operation : Operation} (still : operation.builds = false) :
    Atomic group (group.apply operation) := by
  cases operation with
  | finalize => cases still
  | compileAll => cases still
  | addScript => exact (group.atomic_add _).answered .group
  | removeScript script => exact (group.atomic_removeScript script).answered .group
  | setPriority script level => exact (group.atomic_setPriority script level).answered .group
  | setInvocation script => exact (group.atomic_modify script _).answered .group
  | edit =>
    simp only [apply]
    split
    · exact .accepted
    · exact .refused

/-- A group and what some operation leaves of it, or the group itself. -/
def Evolves (edits : Script → Script → Prop) (group changed : Group) : Prop :=
  changed = group ∨
    ∃ operation : Operation, operation.Meets edits ∧ (group.apply operation).2 = changed

theorem Evolves.keeps (kept : Group → Prop)
    (step : ∀ (group : Group) {operation : Operation}, operation.Meets edits → kept group →
      kept (group.apply operation).2)
    (evolves : group.Evolves edits changed) (start : kept group) : kept changed := by
  rcases evolves with rfl | ⟨operation, meets, rfl⟩
  · exact start
  · exact step group meets start

theorem Evolves.id_eq (evolves : group.Evolves edits changed) : changed.id = group.id :=
  evolves.keeps (fun other => other.id = group.id)
    (fun other _ meets same => (other.changes_apply meets).id_eq.trans same) rfl

end Group

/-! ### Operations on a scene -/

namespace Scene

/-- What a caller can do to a scene. -/
inductive Operation where
  | addGroup (group : Group)
  | removeGroup (group : UInt8)
  | loadScript (group script : UInt8) (bytes : List UInt8) (length : Nat) (priority : Priority)
      (invocation : Invocation)
  | configure (config : AssemblyConfig)
  | finalize (group script : UInt8)
  | compileAll
  /-- An operation on a group of the scene. -/
  | within (group : UInt8) (operation : Group.Operation)

/-- Whether an operation builds scripts. -/
def Operation.builds : Operation → Bool
  | .finalize .. | .compileAll => true
  | .within _ operation => operation.builds
  | _ => false

/-- An operation that adds only groups as given, and whose edits of scripts are as given. -/
def Operation.Meets (added : Group → Prop) (edits : Script → Script → Prop) : Operation → Prop
  | .addGroup group => added group
  | .within _ operation => operation.Meets edits
  | _ => True

/-- The reply to an operation, and the scene that it leaves. -/
def apply (scene : Scene) : Operation → Except Refusal Unit × Scene
  | .addGroup group => answered .group (scene.addGroup group)
  | .removeGroup group => answered .group (scene.removeGroup group)
  | .loadScript group script bytes length priority invocation =>
    answered .load (scene.loadScript group script bytes length priority invocation)
  | .configure config => (.ok (), { scene with config })
  | .finalize group script => answered .build (scene.finalize group script)
  | .compileAll => (.ok (), scene.compileAll.2)
  | .within number operation =>
    match scene.group? number with
    | none => (.error (.group (.noSuchGroup number)), scene)
    | some group =>
      let (reply, changed) := group.apply operation
      (reply, scene.setGroup number changed)

/-- What a sequence of operations leaves. -/
def run (scene : Scene) (operations : List Operation) : Scene :=
  operations.foldl (fun scene operation => (scene.apply operation).2) scene

/-- What an operation can do to the groups of a scene. -/
inductive Change (added : Group → Prop) (edits : Script → Script → Prop)
    (scene changed : Scene) : Prop
  | joined {group : Group} : added group → group.id ∉ scene.numbers →
      changed.groups = scene.groups ++ [group] → Change added edits scene changed
  | removed (place : Nat) : changed.groups = scene.groups.eraseIdx place →
      Change added edits scene changed
  | evolved : List.Forall₂ (Group.Evolves edits) scene.groups changed.groups →
      Change added edits scene changed

variable {added : Group → Prop} {edits : Script → Script → Prop} {scene changed : Scene}

theorem Change.of_groups_eq (same : changed.groups = scene.groups) :
    scene.Change added edits changed := by
  refine .evolved ?_
  rw [same]
  exact List.forall₂_same.mpr fun group _ => .inl rfl

/-- A group that is found evolves where it stands. -/
theorem change_setGroup {number : UInt8} {group : Group} (found : scene.group? number = some group)
    {operation : Group.Operation} (meets : operation.Meets edits) :
    scene.Change added edits (scene.setGroup number (group.apply operation).2) := by
  rcases scene.located number with ⟨_, missing, _⟩ | ⟨place, own, here, found', listed, _⟩
  · rw [missing] at found
    cases found
  · rw [found] at found'
    cases found'
    rw [setGroup_of_found here]
    exact .evolved (forall₂_set (fun _ => .inl rfl) listed (.inr ⟨operation, meets, rfl⟩))

theorem change_addGroup (scene : Scene) {group : Group} (allowed : added group) :
    scene.Change added edits (scene.addGroup group).2 := by
  refine (scene.atomic_addGroup group).keeps (scene.Change added edits) (.of_groups_eq rfl)
    fun accepted => ?_
  obtain ⟨fresh, rfl⟩ := addGroup_eq_ok_iff.mp accepted
  exact .joined allowed fresh rfl

theorem change_removeGroup (scene : Scene) (number : UInt8) :
    scene.Change added edits (scene.removeGroup number).2 := by
  refine (scene.atomic_removeGroup number).keeps (scene.Change added edits) (.of_groups_eq rfl)
    fun accepted => ?_
  obtain ⟨place, rfl⟩ := removeGroup_eq_ok accepted
  exact .removed place rfl

theorem change_loadScript (scene : Scene) (number script : UInt8) (bytes : List UInt8)
    (length : Nat) (priority : Priority) (invocation : Invocation) :
    scene.Change added edits
      (scene.loadScript number script bytes length priority invocation).2 := by
  unfold loadScript
  split
  · exact .of_groups_eq rfl
  · next decoded _ =>
    split
    · exact .of_groups_eq rfl
    · next group found =>
      -- what is loaded is added like a script of the caller
      have meets : (Group.Operation.addScript decoded priority invocation).Meets edits := trivial
      exact change_setGroup found meets

/-- **What an operation can do to a scene.** -/
theorem change_apply (scene : Scene) {operation : Operation}
    (meets : operation.Meets added edits) :
    scene.Change added edits (scene.apply operation).2 := by
  cases operation with
  | addGroup group => exact scene.change_addGroup meets
  | removeGroup number => exact scene.change_removeGroup number
  | loadScript number script bytes length priority invocation =>
    exact scene.change_loadScript number script bytes length priority invocation
  | configure config => exact .of_groups_eq rfl
  | finalize number script =>
    show scene.Change added edits (scene.finalize number script).2
    unfold finalize
    split
    · exact .of_groups_eq rfl
    · next group found =>
      have meets : (Group.Operation.finalize scene.info script scene.config).Meets edits := trivial
      exact change_setGroup found meets
  | compileAll =>
    refine .evolved ?_
    simp only [apply, compileAll, List.map_map]
    refine List.forall₂_map_right_iff.mpr (List.forall₂_same.mpr fun group _ => ?_)
    exact .inr ⟨.compileAll scene.info scene.config, trivial, rfl⟩
  | within number operation =>
    simp only [apply]
    split
    · exact .of_groups_eq rfl
    · next group found => exact change_setGroup found meets

/-- **An operation that is refused leaves the scene as it was**, unless it is a build. -/
theorem atomic_apply (scene : Scene) {operation : Operation} (still : operation.builds = false) :
    Atomic scene (scene.apply operation) := by
  cases operation with
  | finalize => cases still
  | compileAll => cases still
  | configure => exact .accepted
  | addGroup group => exact (scene.atomic_addGroup group).answered .group
  | removeGroup number => exact (scene.atomic_removeGroup number).answered .group
  | loadScript => exact (scene.atomic_loadScript ..).answered .load
  | within number operation =>
    simp only [apply]
    split
    · exact .refused
    · next group found => exact atomic_setGroup found (group.atomic_apply still)

/-! ### What is kept -/

/-- What operations on groups keep of every group, an operation on the scene keeps. -/
theorem Change.forall_groups {kept : Group → Prop} (start : ∀ group, added group → kept group)
    (step : ∀ (group : Group) {operation : Group.Operation}, operation.Meets edits → kept group →
      kept (group.apply operation).2)
    (change : scene.Change added edits changed) (before : ∀ group ∈ scene.groups, kept group) :
    ∀ group ∈ changed.groups, kept group := by
  cases change with
  | joined meets _ same =>
    rw [same]
    intro group member
    rcases List.mem_append.mp member with old | new
    · exact before group old
    · rw [List.mem_singleton.mp new]
      exact start _ meets
  | removed place same =>
    rw [same]
    exact fun group member => before group ((List.eraseIdx_sublist _ place).subset member)
  | evolved each => exact forall_mem_of_forall₂ (fun evolves => evolves.keeps kept step) each before

/-- Operations keep the numbers of groups apart. -/
theorem Change.nodup_numbers (change : scene.Change added edits changed)
    (before : scene.numbers.Nodup) : changed.numbers.Nodup := by
  unfold numbers at before ⊢
  cases change with
  | joined _ fresh same =>
    rw [same, List.map_append]
    exact before.append (List.nodup_singleton _) (List.disjoint_singleton.mpr fresh)
  | removed place same =>
    rw [same]
    exact before.sublist ((List.eraseIdx_sublist _ place).map Group.id)
  | evolved each =>
    have kept : changed.groups.map Group.id = scene.groups.map Group.id :=
      map_eq_of_forall₂ (fun evolves => evolves.id_eq) each
    rwa [kept]

/-- **What every operation keeps, every sequence of operations keeps.** -/
theorem run_keeps (kept : Scene → Prop) {allowed : Operation → Prop}
    (step : ∀ (scene : Scene) {operation : Operation}, allowed operation → kept scene →
      kept (scene.apply operation).2)
    {operations : List Operation} (each : ∀ operation ∈ operations, allowed operation)
    (start : kept scene) : kept (scene.run operations) := by
  induction operations generalizing scene with
  | nil => exact start
  | cons operation operations ih =>
    refine ih (fun later member => each later (List.mem_cons_of_mem _ member)) ?_
    exact step scene (each operation List.mem_cons_self) start

end Scene

end SceneScript
