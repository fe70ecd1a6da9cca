/-
**The scripts of a scene are built independently.**

Building all scripts goes from number to number and looks each script up again in the group as the
builds before left it. If the numbers are different, each script is found at its own place, and what
a build changes is the recorded length of that place alone. So the whole build comes down to one
build for each script (`Group.outcome`, `Group.record`), none of which sees another script.

* `Group.compileAll_eq`, `Scene.compileAll_eq`: the whole build, script by script;
* `Scene.finalize_of_mem`: the outcome for a script is that of its build alone;
* `Scene.outcomes_of_agrees`: scenes that agree but for one script have the same outcomes but for
  one;
* `Scene.compileAll_again`: a second build finds and leaves the same;
* `Scene.compileAll_independent`: all of this together.
-/

import SceneScript.Proofs.Operations
import SceneScript.Proofs.RecordedLengths

namespace SceneScript

namespace Group

/-- What the build of a script of a group reports. -/
def outcome (group : Group) (scene : SceneInfo) (config : AssemblyConfig) (entry : ScriptEntry) :
    ScriptOutcome where
  group := group.id
  script := entry.script.id
  result := (entry.script.assemble (group.origin scene entry.script.id) config).map Assembly.bytes

/-- What the build of a script of a group leaves of its entry. -/
def record (group : Group) (scene : SceneInfo) (config : AssemblyConfig) (entry : ScriptEntry) :
    ScriptEntry :=
  { entry with
    builtLength := (entry.script.assemble (group.origin scene entry.script.id)
      config).toOption.map Assembly.length16 }

/-- The outcomes for all scripts of a group, in order. -/
def outcomes (group : Group) (scene : SceneInfo) (config : AssemblyConfig) : List ScriptOutcome :=
  group.entries.map (group.outcome scene config)

/-- A group after the build of all its scripts. -/
def built (group : Group) (scene : SceneInfo) (config : AssemblyConfig) : Group :=
  { group with entries := group.entries.map (group.record scene config) }

variable {group : Group} {scene : SceneInfo} {config : AssemblyConfig}

/-- The build of the script at a place, if the scripts have different numbers. -/
theorem finalize_of_listed (distinct : group.numbers.Nodup) {place : Nat} {entry : ScriptEntry}
    (listed : group.entries[place]? = some entry) :
    group.finalize scene entry.script.id config =
      ((group.outcome scene config entry).result.mapError .assembly,
        { group with entries := group.entries.set place (group.record scene config entry) }) := by
  obtain ⟨found, found'⟩ :=
    found_of_listed (fun entry : ScriptEntry => entry.script.id) distinct listed
  exact finalize_of_found found found' listed scene config

/-- One step of building all scripts adds the outcome for its script and records the length. -/
theorem compileNext_of_listed (distinct : group.numbers.Nodup) {place : Nat} {entry : ScriptEntry}
    (listed : group.entries[place]? = some entry) (outcomes : List ScriptOutcome) :
    compileNext scene config (outcomes, group) entry.script.id =
      (group.outcome scene config entry :: outcomes,
        { group with entries := group.entries.set place (group.record scene config entry) }) := by
  unfold compileNext
  simp only [finalize_of_listed distinct listed]
  unfold outcome
  cases entry.script.assemble (group.origin scene entry.script.id) config <;> rfl

/-- The scripts behind those that are built already are built one after the other. -/
theorem foldl_compileNext (scene : SceneInfo) (config : AssemblyConfig)
    {done rest : List ScriptEntry} (split : group.entries = done ++ rest)
    (distinct : group.numbers.Nodup) (outcomes : List ScriptOutcome) :
    (rest.map fun entry => entry.script.id).foldl (compileNext scene config) (outcomes, group) =
      ((rest.map (group.outcome scene config)).reverse ++ outcomes,
        { group with entries := done ++ rest.map (group.record scene config) }) := by
  induction rest generalizing group done outcomes with
  | nil =>
    simp only [List.map_nil, ← split]
    rfl
  | cons entry rest ih =>
    have listed : group.entries[done.length]? = some entry := by simp [split]
    have behind : group.entries.set done.length (group.record scene config entry) =
        (done ++ [group.record scene config entry]) ++ rest := by simp [split]
    have kept : Group.numbers { group with
        entries := group.entries.set done.length (group.record scene config entry) } =
        group.numbers := map_set_eq listed rfl
    rw [List.map_cons, List.foldl_cons, compileNext_of_listed distinct listed,
      ih behind (kept ▸ distinct)]
    -- what is left of the group has its number and name, so the later outcomes are the same
    show ((rest.map (group.outcome scene config)).reverse ++ _, _) = _
    simp only [List.map_cons, List.reverse_cons, List.append_assoc, List.singleton_append]
    rfl

/-- **The build of all scripts of a group**, script by script, if their numbers are different. -/
theorem compileAll_eq (distinct : group.numbers.Nodup) (scene : SceneInfo)
    (config : AssemblyConfig) :
    group.compileAll scene config = (group.outcomes scene config, group.built scene config) := by
  have run :=
    foldl_compileNext scene config (List.nil_append group.entries).symm distinct []
  unfold compileAll
  simp only [run, List.append_nil, List.nil_append, List.reverse_reverse]
  rfl

@[simp] theorem numbers_built : (group.built scene config).numbers = group.numbers := by
  simp [numbers, built, record]

/-- A build reads nothing of what builds record. -/
theorem outcomes_built : (group.built scene config).outcomes scene config =
    group.outcomes scene config := by
  unfold outcomes
  rw [built, List.map_map]
  rfl

theorem built_built : (group.built scene config).built scene config =
    group.built scene config := by
  unfold built
  rw [List.map_map]
  rfl

end Group

/-! ### Scenes -/

/-- The group and the script that an outcome is for. -/
def ScriptOutcome.slot (outcome : ScriptOutcome) : UInt8 × UInt8 := (outcome.group, outcome.script)

namespace Scene

/-- The groups and scripts of a scene, in order. -/
def slots (scene : Scene) : List (UInt8 × UInt8) :=
  scene.groups.flatMap fun group => group.entries.map fun entry => (group.id, entry.script.id)

/-- The lengths that are recorded in a scene, in order. -/
def lengths (scene : Scene) : List (Option Nat) :=
  scene.groups.flatMap fun group => group.entries.map fun entry =>
    entry.builtLength.map UInt16.toNat

/-- A scene with all recorded lengths forgotten. -/
def unbuilt (scene : Scene) : Scene :=
  { scene with
    groups := scene.groups.map fun group =>
      { group with entries := group.entries.map fun entry => { entry with builtLength := none } } }

variable {scene : Scene}

/-- **The build of all scripts of a scene**, script by script, if the numbers are different. -/
theorem compileAll_eq (distinct : scene.Distinct) :
    scene.compileAll =
      (scene.groups.flatMap fun group => group.outcomes scene.info scene.config,
        { scene with groups := scene.groups.map fun group =>
            group.built scene.info scene.config }) := by
  have each : scene.groups.map (·.compileAll scene.info scene.config) =
      scene.groups.map fun group => (group.outcomes scene.info scene.config,
        group.built scene.info scene.config) :=
    List.map_congr_left fun group member =>
      Group.compileAll_eq (distinct.scripts group member) scene.info scene.config
  unfold compileAll
  simp only [each, List.flatMap_map, List.map_map]
  rfl

/-- There is one outcome for each script, in order. -/
theorem slots_compileAll (distinct : scene.Distinct) :
    scene.compileAll.1.map ScriptOutcome.slot = scene.slots := by
  rw [compileAll_eq distinct, List.map_flatMap]
  unfold slots
  congr 1
  funext group
  exact List.map_map

/-- **The outcome for a script is that of its build alone.** -/
theorem finalize_of_mem (distinct : scene.Distinct) {outcome : ScriptOutcome}
    (member : outcome ∈ scene.compileAll.1) :
    (scene.finalize outcome.group outcome.script).1 = outcome.result.mapError .assembly := by
  rw [compileAll_eq distinct] at member
  obtain ⟨group, among, inside⟩ := List.mem_flatMap.mp member
  obtain ⟨entry, own, rfl⟩ := List.mem_map.mp inside
  obtain ⟨index, listed⟩ := List.mem_iff_getElem?.mp among
  obtain ⟨place, placed⟩ := List.mem_iff_getElem?.mp own
  have found : scene.group? group.id = some group :=
    (found_of_listed Group.id distinct.groups listed).2
  show (scene.finalize group.id entry.script.id).1 = _
  rw [finalize_of_found found, Group.finalize_of_listed (distinct.scripts group among) placed]

/-! ### What a build leaves -/

theorem distinct_compileAll (distinct : scene.Distinct) : scene.compileAll.2.Distinct := by
  rw [compileAll_eq distinct]
  refine ⟨?_, fun group member => ?_⟩
  · show (List.map Group.id (List.map _ scene.groups)).Nodup
    rw [List.map_map]
    exact distinct.groups
  · obtain ⟨before, among, rfl⟩ := List.mem_map.mp member
    rw [Group.numbers_built]
    exact distinct.scripts before among

/-- **A second build finds and leaves the same.** -/
theorem compileAll_again (distinct : scene.Distinct) :
    scene.compileAll.2.compileAll = scene.compileAll := by
  rw [compileAll_eq (distinct_compileAll distinct), compileAll_eq distinct]
  simp only [List.flatMap_map, List.map_map, Function.comp_def, Group.outcomes_built,
    Group.built_built]

theorem unbuilt_compileAll (distinct : scene.Distinct) :
    scene.compileAll.2.unbuilt = scene.unbuilt := by
  rw [compileAll_eq distinct]
  simp only [unbuilt, List.map_map, Function.comp_def, Group.built, Group.record]

/-- **What a build records** is the length of each script that could be built, and nothing for the
others. -/
theorem lengths_compileAll (distinct : scene.Distinct) :
    scene.compileAll.2.lengths =
      scene.compileAll.1.map fun outcome => outcome.result.toOption.map List.length := by
  rw [compileAll_eq distinct, lengths, List.map_flatMap, List.flatMap_map]
  congr 1
  funext group
  simp only [Group.built, Group.outcomes, List.map_map]
  refine List.map_congr_left fun entry _ => ?_
  simp only [Function.comp_apply, Group.record, Group.outcome]
  cases assembled : entry.script.assemble (group.origin scene.info entry.script.id)
    scene.config with
  | error diagnostics => rfl
  | ok assembly =>
    exact congrArg some (Script.toNat_length16 (Script.assemble_eq_ok_iff.mp assembled))

end Scene

/-! ### Scenes that agree but for one script -/

section Agreement

variable {slot : UInt8 × UInt8}

/-- Two entries of a group have the same number, and the same script but for that of a slot. -/
structure ScriptEntry.Agrees (slot : UInt8 × UInt8) (group : UInt8) (entry changed : ScriptEntry) :
    Prop where
  number : changed.script.id = entry.script.id
  script : (group, entry.script.id) ≠ slot → changed.script = entry.script

/-- Two groups agree but for the script of a slot. -/
structure Group.Agrees (slot : UInt8 × UInt8) (group changed : Group) : Prop where
  number : changed.id = group.id
  name : changed.name = group.name
  entries : List.Forall₂ (ScriptEntry.Agrees slot group.id) group.entries changed.entries

/-- Two scenes agree but for the script of a slot. -/
structure Scene.Agrees (slot : UInt8 × UInt8) (scene changed : Scene) : Prop where
  info : changed.info = scene.info
  config : changed.config = scene.config
  groups : List.Forall₂ (Group.Agrees slot) scene.groups changed.groups

/-- Two outcomes are the same, unless they are for a slot. -/
def ScriptOutcome.Agrees (slot : UInt8 × UInt8) (outcome other : ScriptOutcome) : Prop :=
  outcome.slot ≠ slot → other = outcome

theorem ScriptEntry.Agrees.refl (slot : UInt8 × UInt8) (group : UInt8) (entry : ScriptEntry) :
    entry.Agrees slot group entry :=
  ⟨rfl, fun _ => rfl⟩

theorem Group.Agrees.refl (slot : UInt8 × UInt8) (group : Group) : group.Agrees slot group :=
  ⟨rfl, rfl, List.forall₂_same.mpr fun entry _ => .refl slot group.id entry⟩

theorem Scene.Agrees.refl (slot : UInt8 × UInt8) (scene : Scene) : scene.Agrees slot scene :=
  ⟨rfl, rfl, List.forall₂_same.mpr fun group _ => .refl slot group⟩

theorem Group.Agrees.numbers_eq {group changed : Group} (agrees : group.Agrees slot changed) :
    changed.numbers = group.numbers :=
  map_eq_of_forall₂ (fun same => same.number) agrees.entries

/-- Groups that agree but for one script have outcomes that agree but for one. -/
theorem Group.Agrees.outcomes {group changed : Group} (agrees : group.Agrees slot changed)
    (scene : SceneInfo) (config : AssemblyConfig) :
    List.Forall₂ (ScriptOutcome.Agrees slot) (group.outcomes scene config)
      (changed.outcomes scene config) := by
  unfold Group.outcomes
  refine List.forall₂_map_left_iff.mpr (List.forall₂_map_right_iff.mpr
    (agrees.entries.imp fun entry other same elsewhere => ?_))
  simp only [Group.outcome, Group.origin, agrees.number, agrees.name, same.script elsewhere]

namespace Scene

variable {scene changed : Scene}

theorem Agrees.distinct (agrees : scene.Agrees slot changed) (distinct : scene.Distinct) :
    changed.Distinct := by
  have numbers : changed.numbers = scene.numbers :=
    map_eq_of_forall₂ (fun same => same.number) agrees.groups
  refine ⟨numbers ▸ distinct.groups, ?_⟩
  refine forall_mem_of_forall₂ (fun same apart => ?_) agrees.groups distinct.scripts
  rwa [same.numbers_eq]

/-- **Scenes that agree but for one script have outcomes that agree but for one.** -/
theorem outcomes_of_agrees (distinct : scene.Distinct) (agrees : scene.Agrees slot changed) :
    List.Forall₂ (ScriptOutcome.Agrees slot) scene.compileAll.1 changed.compileAll.1 := by
  rw [compileAll_eq distinct, compileAll_eq (agrees.distinct distinct), agrees.info, agrees.config]
  exact List.rel_flatMap agrees.groups fun _ _ same => same.outcomes scene.info scene.config

/-- A scene with another script in the place of the one with its number in a group. -/
def replaced (scene : Scene) (group : UInt8) (script : Script) : Scene :=
  (scene.apply (.within group (.edit script.id fun _ => script))).2

/-- Replacing a script leaves a scene that agrees but for that script. -/
theorem agrees_replaced (scene : Scene) (number : UInt8) (script : Script) :
    scene.Agrees (number, script.id) (scene.replaced number script) := by
  unfold replaced
  simp only [apply]
  rcases scene.located number with ⟨_, missing, _⟩ | ⟨place, group, here, found, listed, rfl⟩
  · rw [missing]
    exact .refl _ scene
  · simp only [found, setGroup_of_found here]
    refine ⟨rfl, rfl, forall₂_set (.refl _) listed ?_⟩
    simp only [Group.apply]
    split
    · next edited accepted =>
      obtain ⟨place, entry, listed, named, rfl⟩ := Group.edit?_eq_some accepted
      refine ⟨rfl, rfl, forall₂_set (.refl _ group.id) listed ⟨named.symm, fun elsewhere => ?_⟩⟩
      exact absurd (congrArg (group.id, ·) named) elsewhere
    · exact .refl _ group

/-- **The scripts of a scene are built independently**, if the numbers are different. There is one
outcome for each script, in order, and it is that of the build of that script alone; another script
in the place of one changes no outcome but its own. The scene afterwards is as before but for the
recorded lengths, which are those of the bytes, and a second build finds and leaves the same. -/
theorem compileAll_independent (distinct : scene.Distinct) :
    scene.compileAll.1.map ScriptOutcome.slot = scene.slots ∧
      (∀ outcome ∈ scene.compileAll.1,
        (scene.finalize outcome.group outcome.script).1 = outcome.result.mapError .assembly) ∧
      (∀ (group : UInt8) (script : Script),
        List.Forall₂ (ScriptOutcome.Agrees (group, script.id)) scene.compileAll.1
          (scene.replaced group script).compileAll.1) ∧
      scene.compileAll.2.unbuilt = scene.unbuilt ∧
      scene.compileAll.2.lengths =
        (scene.compileAll.1.map fun outcome => outcome.result.toOption.map List.length) ∧
      scene.compileAll.2.compileAll = scene.compileAll := by
  refine ⟨slots_compileAll distinct, fun _ member => finalize_of_mem distinct member,
    fun group script => ?_, unbuilt_compileAll distinct, lengths_compileAll distinct,
    compileAll_again distinct⟩
  exact outcomes_of_agrees distinct (scene.agrees_replaced group script)

end Scene

end Agreement

/-- A script whose jump goes to a label that is not placed. -/
def Script.stray : Script where
  id := 1
  instructions := [.jump 0]
  labels := #[{ id := 0, name := "away", position := none }]

namespace Scene

/-- A scene with two groups, the first with a script that cannot be built. -/
def depot : Scene where
  info := { id := 2, name := "depot" }
  groups := [
    { id := 0, name := "dir", entries := [
      { script := Script.stray, priority := .highest, invocation := .asyncWait },
      { script := Script.hop, priority := .highest, invocation := .asyncWait }] },
    { id := 3, name := "cart", entries := [
      { script := Script.hop, priority := .highest, invocation := .asyncWait }] }]

theorem outcomes_depot :
    (depot.compileAll.1.map fun outcome => outcome.result.toOption.map List.length) =
      [none, some 5, some 5] := by
  have unplaced : (Script.stray.build {}).toOption = none := by decide +kernel
  have stray : ∀ origin,
      ((Script.stray.assemble origin {}).map Assembly.bytes).toOption = none := by
    intro origin
    cases assembled : Script.stray.assemble origin {} with
    | error diagnostics => rfl
    | ok assembly =>
      rw [Script.assemble_eq_ok_iff.mp assembled] at unplaced
      cases unplaced
  have hop : ∀ origin, Script.hop.assemble origin {} = .ok _ := fun _ =>
    Script.assemble_eq_ok_iff.mpr Script.build_hop
  rw [compileAll_eq ⟨by decide, by decide⟩]
  simp only [depot, Group.outcomes, Group.outcome, List.flatMap_cons, List.flatMap_nil,
    List.map_cons, List.map_nil, List.map_append, stray, hop]
  rfl

/-- The script that fails comes first, and the others are built behind it. -/
theorem compileAll_independent_depot :
    depot.Distinct ∧
      depot.compileAll.1.map ScriptOutcome.slot = [(0, 1), (0, 0), (3, 0)] ∧
      depot.compileAll.2.lengths = [none, some 5, some 5] ∧
      List.Forall₂ (ScriptOutcome.Agrees (0, 1)) depot.compileAll.1
        (depot.replaced 0 { id := 1, instructions := [.nop] }).compileAll.1 ∧
      depot.compileAll.2.compileAll = depot.compileAll := by
  have distinct : depot.Distinct := ⟨by decide, by decide⟩
  obtain ⟨slots, _, others, _, lengths, again⟩ := compileAll_independent distinct
  refine ⟨distinct, slots, ?_, others 0 { id := 1, instructions := [.nop] }, again⟩
  rw [lengths, outcomes_depot]

end Scene

end SceneScript
