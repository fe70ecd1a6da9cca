/-
**Scenes: groups of scripts that are built together.**

A scene has a name, groups with distinct numbers, and the settings of the assembler. Like a script
in a group, a group is looked up as the first with its number.
-/

import SceneScript.Disassembly
import SceneScript.Group

namespace SceneScript

/-- A named set of groups. -/
structure Scene where
  info : SceneInfo
  groups : List Group := []
  config : AssemblyConfig := {}
deriving DecidableEq

/-- Why a stored script was not loaded. -/
inductive LoadError where
  | group (cause : GroupError)
  | decode (group script : UInt8) (cause : DecodeError)
deriving DecidableEq

/-- The wording of a load error. -/
def LoadError.message : LoadError → String
  | group cause => cause.message
  | decode owner script cause => s!"group {owner} script {script}: {cause.message}"

namespace Scene

/-- The place of the first group with a given number. -/
def place? (scene : Scene) (group : UInt8) : Option Nat := scene.groups.findIdx? (·.id == group)

/-- The first group with a given number. -/
def group? (scene : Scene) (group : UInt8) : Option Group := scene.groups.find? (·.id == group)

/-! ### Changing the groups

Like the operations on a group, these give their reply, and the scene that they leave. -/

/-- Adds a group, whose number has to be new. -/
def addGroup (scene : Scene) (group : Group) : Except GroupError Unit × Scene :=
  if (scene.group? group.id).isSome then (.error (.duplicateGroup group.id), scene)
  else (.ok (), { scene with groups := scene.groups ++ [group] })

/-- Takes out a group, which is the reply. -/
def removeGroup (scene : Scene) (group : UInt8) : Except GroupError Group × Scene :=
  match scene.place? group, scene.group? group with
  | some place, some removed =>
    (.ok removed, { scene with groups := scene.groups.eraseIdx place })
  | _, _ => (.error (.noSuchGroup group), scene)

/-- A scene with the first group that has the number `group` replaced. -/
def setGroup (scene : Scene) (group : UInt8) (replacement : Group) : Scene :=
  match scene.place? group with
  | some place => { scene with groups := scene.groups.set place replacement }
  | none => scene

/-- Adds a script that is read from the first `length` of some bytes. The group stays in the scene
as the addition leaves it. -/
def loadScript (scene : Scene) (group script : UInt8) (bytes : List UInt8) (length : Nat)
    (priority : Priority) (invocation : Invocation) : Except LoadError Unit × Scene :=
  match Script.disassembleFirst script bytes length with
  | .error cause => (.error (.decode group script cause), scene)
  | .ok decoded =>
    match scene.group? group with
    | none => (.error (.group (.noSuchGroup group)), scene)
    | some found =>
      let (reply, extended) := found.addScript decoded priority invocation
      (reply.mapError .group, scene.setGroup group extended)

/-! ### Building -/

/-- Builds one script with the settings of the scene. -/
def finalize (scene : Scene) (group script : UInt8) :
    Except BuildError (List UInt8) × Scene :=
  match scene.group? group with
  | none => (.error (.group (.noSuchGroup group)), scene)
  | some found =>
    let (result, built) := found.finalize scene.info script scene.config
    (result, scene.setGroup group built)

/-- Builds every script of every group; a failure does not stop the others. -/
def compileAll (scene : Scene) : List ScriptOutcome × Scene :=
  let built := scene.groups.map (·.compileAll scene.info scene.config)
  (built.flatMap Prod.fst, { scene with groups := built.map Prod.snd })

end Scene

/-! ### Reports of a whole build -/

namespace ScriptOutcome

def succeeded (outcome : ScriptOutcome) : Bool := outcome.result.isOk

/-- What is wrong with the script; nothing if it was built. -/
def diagnostics (outcome : ScriptOutcome) : List Diagnostic :=
  match outcome.result with
  | .ok _ => []
  | .error diagnostics => diagnostics

/-- The bytes of the first outcome for a script, if that script was built. -/
def bytes? (outcomes : List ScriptOutcome) (group script : UInt8) : Option (List UInt8) :=
  (outcomes.find? fun outcome => outcome.group == group && outcome.script == script).bind
    fun outcome => outcome.result.toOption

end ScriptOutcome

end SceneScript
