/-
**Groups: the scripts of one object of a scene.**

A group holds at most 32 scripts with distinct numbers, each with a priority, a way in which callers
wait, and the length of its last build. Every edit of a script forgets that length, and every build
records it anew.

Editing can give a script the number of another one; a script is therefore looked up as the first
with its number.
-/

import SceneScript.Assembly

namespace SceneScript

/-- How many scripts a group can hold. -/
def maxGroupScripts : Nat := 32

/-- Why a group or a scene refuses an operation. -/
inductive GroupError where
  | duplicateScript (group script : UInt8)
  | noSuchScript (group script : UInt8)
  | groupFull (group : UInt8)
  | invalidPriority (level : UInt8)
  | duplicateGroup (group : UInt8)
  | noSuchGroup (group : UInt8)
deriving DecidableEq

/-- The wording of a group error. -/
def GroupError.message : GroupError → String
  | duplicateScript group script => s!"group {group} already has a script {script}"
  | noSuchScript group script => s!"group {group} has no script {script}"
  | groupFull group => s!"group {group} is full ({maxGroupScripts} scripts)"
  | invalidPriority level => s!"priority {level} is outside 1..=6"
  | duplicateGroup group => s!"scene already has a group {group}"
  | noSuchGroup group => s!"scene has no group {group}"

/-- The priority of a script, from 1, the highest, to 6. -/
structure Priority where
  level : UInt8
  valid : 1 ≤ level ∧ level ≤ 6
deriving DecidableEq

namespace Priority

def highest : Priority := ⟨1, by decide⟩

/-- The priority of a given level. -/
def ofLevel (level : UInt8) : Except GroupError Priority :=
  if valid : 1 ≤ level ∧ level ≤ 6 then .ok ⟨level, valid⟩ else .error (.invalidPriority level)

end Priority

/-- How a caller waits for a script that it requests. -/
inductive Invocation where
  | asyncNoWait
  | asyncWait
  | syncWait
deriving DecidableEq

namespace Invocation

def all : List Invocation := [asyncNoWait, asyncWait, syncWait]

/-- The name of a way to wait in the stored form. -/
def name : Invocation → String
  | asyncNoWait => "AsyncNoWait"
  | asyncWait => "AsyncWait"
  | syncWait => "SyncWait"

/-- The way to wait with a given name. -/
def ofName? (name : String) : Option Invocation := all.find? (·.name == name)

end Invocation

/-- A script in a group. -/
structure ScriptEntry where
  script : Script
  priority : Priority
  invocation : Invocation
  /-- The length of the last build, if the script was not edited since and the build succeeded. -/
  builtLength : Option UInt16 := none
deriving DecidableEq

/-- The scripts of one object. -/
structure Group where
  id : UInt8
  name : String
  entries : List ScriptEntry := []
deriving DecidableEq

/-- The result of building one script. -/
structure ScriptOutcome where
  group : UInt8
  script : UInt8
  result : Except (List Diagnostic) (List UInt8)

/-- Why a script was not built. -/
inductive BuildError where
  | group (cause : GroupError)
  | assembly (diagnostics : List Diagnostic)
deriving DecidableEq

namespace BuildError

/-- The wording of a build error. -/
def message : BuildError → String
  | group cause => cause.message
  | assembly diagnostics => s!"{diagnostics.length} compile error(s)"

def diagnostics : BuildError → List Diagnostic
  | group _ => []
  | assembly diagnostics => diagnostics

end BuildError

/-- The name and number of a scene. -/
structure SceneInfo where
  id : UInt16
  name : String
deriving DecidableEq

namespace Group

/-- The place of the first script with a given number. -/
def place? (group : Group) (script : UInt8) : Option Nat :=
  group.entries.findIdx? (·.script.id == script)

/-- The entry of the first script with a given number. -/
def entry? (group : Group) (script : UInt8) : Option ScriptEntry :=
  group.entries.find? (·.script.id == script)

/-- The first script with a given number. -/
def script? (group : Group) (script : UInt8) : Option Script :=
  (group.entry? script).map ScriptEntry.script

/-- The lengths of the last builds. -/
def builtLengths (group : Group) : List (UInt8 × Option UInt16) :=
  group.entries.map fun entry => (entry.script.id, entry.builtLength)

/-! ### Changing the entries

These give their reply, and the group that they leave. -/

/-- Adds an entry. Its number has to be new, and the group must not be full. -/
def add (group : Group) (entry : ScriptEntry) : Except GroupError Unit × Group :=
  if (group.entry? entry.script.id).isSome then
    (.error (.duplicateScript group.id entry.script.id), group)
  else if maxGroupScripts ≤ group.entries.length then (.error (.groupFull group.id), group)
  else (.ok (), { group with entries := group.entries ++ [entry] })

/-- Adds a script, which was not built yet. -/
def addScript (group : Group) (script : Script) (priority : Priority) (invocation : Invocation) :
    Except GroupError Unit × Group :=
  group.add { script, priority, invocation }

/-- Takes out a script, which is the reply. -/
def removeScript (group : Group) (script : UInt8) : Except GroupError Script × Group :=
  match group.place? script, group.entry? script with
  | some place, some entry =>
    (.ok entry.script, { group with entries := group.entries.eraseIdx place })
  | _, _ => (.error (.noSuchScript group.id script), group)

/-- Changes the entry of a script by `f`. -/
def modify (group : Group) (script : UInt8) (f : ScriptEntry → ScriptEntry) :
    Except GroupError Unit × Group :=
  match group.place? script with
  | some place => (.ok (), { group with entries := group.entries.modify place f })
  | none => (.error (.noSuchScript group.id script), group)

/-- Sets the priority of a script to a level. -/
def setPriority (group : Group) (script level : UInt8) : Except GroupError Unit × Group :=
  match Priority.ofLevel level with
  | .ok priority => group.modify script fun entry => { entry with priority }
  | .error cause => (.error cause, group)

/-- Sets another way to wait for a script. -/
def setInvocation (group : Group) (script : UInt8) (invocation : Invocation) :
    Except GroupError Unit × Group :=
  group.modify script fun entry => { entry with invocation }

/-- Runs an edit on a script: its result, and the group with the script as the edit left it and its
last build forgotten. None if there is no such script. -/
def edit? {α : Type} (group : Group) (script : UInt8) (f : Script → α × Script) :
    Option (α × Group) := do
  let place ← group.place? script
  let entry ← group.entry? script
  let (result, edited) := f entry.script
  return (result, { group with
    entries := group.entries.set place { entry with script := edited, builtLength := none } })

/-! ### Building -/

/-- Where a diagnostic of a script of a group comes from. -/
def origin (group : Group) (scene : SceneInfo) (script : UInt8) : Origin where
  scene := scene.id
  sceneName := scene.name
  group := group.id
  groupName := group.name
  script := script

/-- Builds a script: the bytes or why there are none, and the group with the length recorded. A
failed build forgets the length. -/
def finalize (group : Group) (scene : SceneInfo) (script : UInt8) (config : AssemblyConfig) :
    Except BuildError (List UInt8) × Group :=
  match group.entry? script, group.place? script with
  | some entry, some place =>
    let record := fun builtLength => { group with
      entries := group.entries.modify place fun entry => { entry with builtLength } }
    match entry.script.assemble (group.origin scene script) config with
    | .ok assembly => (.ok assembly.bytes, record (some assembly.length16))
    | .error diagnostics => (.error (.assembly diagnostics), record none)
  | _, _ => (.error (.group (.noSuchScript group.id script)), group)

/-- Builds one script after others, and adds its outcome to theirs, latest first. -/
def compileNext (scene : SceneInfo) (config : AssemblyConfig)
    (state : List ScriptOutcome × Group) (script : UInt8) : List ScriptOutcome × Group :=
  let (outcomes, group) := state
  match group.finalize scene script config with
  | (.ok bytes, built) => ({ group := group.id, script, result := .ok bytes } :: outcomes, built)
  | (.error (.assembly diagnostics), built) =>
    ({ group := group.id, script, result := .error diagnostics } :: outcomes, built)
  | (.error (.group _), built) => (outcomes, built)

/-- Builds every script; a failure does not stop the others. -/
def compileAll (group : Group) (scene : SceneInfo) (config : AssemblyConfig) :
    List ScriptOutcome × Group :=
  let scripts := group.entries.map (·.script.id)
  let (outcomes, built) := scripts.foldl (compileNext scene config) ([], group)
  (outcomes.reverse, built)

end Group

end SceneScript
