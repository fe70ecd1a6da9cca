/-
**The stored forms of scripts, groups, scenes, queries and diagnostics.**
-/

import SceneScript.Search
import SceneScript.Stored

namespace SceneScript.Stored

/-! ### Opcodes and operands -/

instance : Stored Shape where
  write shape := .string shape.name
  read := readName Shape.ofName?

instance : Stored Flow where
  write flow := .string flow.name
  read := readName Flow.ofName?

/-- The flags that have names, in the order in which they are written. -/
def flagNames : List (String × Flags) :=
  [("EXEC", .exec), ("MAP_JUMP", .mapJump), ("TEXT", .text)]

/-- Flags as text: the names of those that are set, then the other bits in hexadecimal. -/
def writeFlags (flags : Flags) : String :=
  let named := flagNames.filter fun (_, flag) => flags.contains flag
  let rest := named.foldl (fun bits (_, flag) => bits &&& ~~~flag.bits) flags.bits
  let extra := if rest = 0 then [] else [Text.hex rest.toNat]
  String.intercalate " | " (named.map Prod.fst ++ extra)

/-- One flag: a name, or bits in hexadecimal. -/
def readFlag : List Char → Option Flags
  | '0' :: 'x' :: digits => (Text.readByte digits).map Flags.mk
  | name => (flagNames.find? fun (known, _) => known.toList == name).map Prod.snd

/-- Flags with bars between them. A blank text is the empty set. -/
def readFlags (text : String) : Option Flags :=
  if (Text.trim text.toList).isEmpty then some {}
  else
    (Text.splitWhere (· == '|') text.toList).foldlM
      (fun flags piece => (readFlag (Text.trim piece)).map flags.union) {}

instance : Stored Flags where
  write flags := .string (writeFlags flags)
  read
    | .string text =>
      match readFlags text with
      | some flags => .ok flags
      | none => .error .malformed
    | _ => .error .malformed

instance : Stored Opcode where
  write opcode := .object [
    ("id", write opcode.code), ("mnemonic", write opcode.mnemonic),
    ("operands", write opcode.shapes), ("branch", write opcode.flow),
    ("variant", write opcode.twin), ("flags", write opcode.flags)]
  read := readRecord ["id", "mnemonic", "operands", "branch", "variant", "flags"] fun fields =>
    Opcode.mk <$> fields.required "id" <*> fields.required "mnemonic" <*>
      fields.required "operands" <*> fields.required "branch" <*> fields.optional "variant" <*>
      fields.required "flags"

instance : Stored Operand where
  write
    | .scalar value => .object [("Scalar", write value)]
    | .label id => .object [("Symbolic", write id)]
    | .offset value => .object [("ResolvedOffset", write value)]
    | .bytes payload => .object [("Bytes", write payload)]
  read
    | .object [("Scalar", json)] => return .scalar (← read json)
    | .object [("Symbolic", json)] => return .label (← read json)
    | .object [("ResolvedOffset", json)] => return .offset (← read json)
    | .object [("Bytes", json)] => return .bytes (← read json)
    | _ => .error .malformed

/-! ### Scripts -/

instance : Stored Instruction where
  write instruction := .object [
    ("opcode", write instruction.opcode), ("operands", write instruction.operands)]
  read := readRecord ["opcode", "operands"] fun fields =>
    Instruction.mk <$> fields.required "opcode" <*> fields.required "operands"

instance : Stored Label where
  write label := .object [
    ("id", write label.id), ("name", write label.name), ("defined_at", write label.position)]
  read := readRecord ["id", "name", "defined_at"] fun fields =>
    Label.mk <$> fields.required "id" <*> fields.required "name" <*> fields.optional "defined_at"

instance : Stored Script where
  write script := .object [
    ("id", write script.id), ("instructions", write script.instructions),
    ("labels", write script.labels.toList)]
  read := readRecord ["id", "instructions", "labels"] fun fields =>
    Script.mk <$> fields.required "id" <*> fields.required "instructions" <*>
      (List.toArray <$> fields.required "labels")

instance : Stored AssemblyConfig where
  write config := .object [
    ("flip_jump_direction", write config.flipJumps), ("max_passes", write config.maxPasses)]
  read := readRecord ["flip_jump_direction", "max_passes"] fun fields =>
    AssemblyConfig.mk <$> fields.defaulted "flip_jump_direction" true <*>
      fields.defaulted "max_passes" none

/-! ### Groups and scenes -/

instance : Stored Priority where
  write priority := write priority.level
  read json := do
    match Priority.ofLevel (← read json) with
    | .ok priority => return priority
    | .error cause => throw (.group cause)

instance : Stored Invocation where
  write invocation := .string invocation.name
  read := readName Invocation.ofName?

instance : Stored ScriptEntry where
  write entry := .object [
    ("script", write entry.script), ("priority", write entry.priority),
    ("invocation", write entry.invocation), ("blob_len", write entry.builtLength)]
  read := readRecord ["script", "priority", "invocation", "blob_len"] fun fields =>
    ScriptEntry.mk <$> fields.required "script" <*> fields.required "priority" <*>
      fields.required "invocation" <*> fields.optional "blob_len"

/-- What an operation leaves; its refusal is an error of the reader. -/
def unlessRefused {σ : Type} : Except GroupError Unit × σ → Except ReadError σ
  | (.ok (), state) => .ok state
  | (.error cause, _) => .error (.group cause)

/-- The entries of a group are added one after the other, each under the rules of the group. -/
instance : Stored Group where
  write group := .object [
    ("id", write group.id), ("name", write group.name), ("slots", write group.entries)]
  read json := do
    let raw ← readRecord ["id", "name", "slots"]
      (fun fields => Group.mk <$> fields.required "id" <*> fields.required "name" <*>
        fields.required "slots") json
    raw.entries.foldlM (fun group entry => unlessRefused (group.add entry))
      { raw with entries := [] }

instance : Stored SceneInfo where
  write info := .object [("id", write info.id), ("name", write info.name)]
  read := readRecord ["id", "name"] fun fields =>
    SceneInfo.mk <$> fields.required "id" <*> fields.required "name"

/-- The groups of a scene are added one after the other, each under the rules of the scene. -/
instance : Stored Scene where
  write scene := .object [
    ("info", write scene.info), ("groups", write scene.groups), ("config", write scene.config)]
  read json := do
    let raw ← readRecord ["info", "groups", "config"]
      (fun fields => Scene.mk <$> fields.required "info" <*> fields.required "groups" <*>
        fields.defaulted "config" {}) json
    raw.groups.foldlM (fun scene group => unlessRefused (scene.addGroup group))
      { raw with groups := [] }

/-! ### Searches -/

instance : Stored Query where
  write
    | .opcode code => .object [("Opcode", write code)]
    | .var bank address value => .object [("Var", .object [
        ("bank", write bank), ("address", write address), ("value", write value)])]
    | .exec group script => .object [("Exec", .object [
        ("group", write group), ("script", write script)])]
    | .mapJump scene => .object [("MapJump", write scene)]
    | .text id => .object [("Text", write id)]
  read
    | .object [("Opcode", json)] => return .opcode (← read json)
    | .object [("Var", json)] => readObject (fun fields =>
        Query.var <$> fields.required "bank" <*> fields.required "address" <*>
          fields.optional "value") json
    | .object [("Exec", json)] => readObject (fun fields =>
        Query.exec <$> fields.required "group" <*> fields.required "script") json
    | .object [("MapJump", json)] => return .mapJump (← read json)
    | .object [("Text", json)] => return .text (← read json)
    | _ => .error .malformed

instance : Stored Location where
  write location := .object [
    ("group", write location.group), ("script", write location.script),
    ("index", write location.index)]
  read := readRecord ["group", "script", "index"] fun fields =>
    Location.mk <$> fields.required "group" <*> fields.required "script" <*>
      fields.required "index"

/-! ### Diagnostics -/

instance : Stored Unreachable where
  write reason := .string reason.name
  read := readName Unreachable.ofName?

instance : Stored Fault where
  write
    | .duplicateLabel name => .object [("DuplicateLabel", .object [("name", write name)])]
    | .undefinedLabel name => .object [("UndefinedLabel", .object [("name", write name)])]
    | .unreachableLabel name reason => .object [("UnreachableLabel", .object [
        ("name", write name), ("reason", write reason)])]
    | .scriptTooLarge actual => .object [("ScriptTooLarge", .object [("actual", write actual)])]
    | .didNotSettle passes => .object [("AssemblyDidNotConverge", .object [
        ("passes", write passes)])]
    | .invalidOperand operand reason => .object [("InvalidOperand", .object [
        ("operand", write operand), ("reason", write reason)])]
    | .unknownOpcode code => .object [("UnknownOpcode", .object [("opcode", write code)])]
  read
    | .object [("DuplicateLabel", json)] => readObject (fun fields =>
        Fault.duplicateLabel <$> fields.required "name") json
    | .object [("UndefinedLabel", json)] => readObject (fun fields =>
        Fault.undefinedLabel <$> fields.required "name") json
    | .object [("UnreachableLabel", json)] => readObject (fun fields =>
        Fault.unreachableLabel <$> fields.required "name" <*> fields.required "reason") json
    | .object [("ScriptTooLarge", json)] => readObject (fun fields =>
        Fault.scriptTooLarge <$> fields.required "actual") json
    | .object [("AssemblyDidNotConverge", json)] => readObject (fun fields =>
        Fault.didNotSettle <$> fields.required "passes") json
    | .object [("InvalidOperand", json)] => readObject (fun fields =>
        Fault.invalidOperand <$> fields.required "operand" <*> fields.required "reason") json
    | .object [("UnknownOpcode", json)] => readObject (fun fields =>
        Fault.unknownOpcode <$> fields.required "opcode") json
    | _ => .error .malformed

/-- A diagnostic from its fields in the order in which they are stored. -/
def diagnosticOf (scene : UInt16) (sceneName : String) (group : UInt8) (groupName : String)
    (script : UInt8) (index : Nat) (fault : Fault) : Diagnostic :=
  { origin := { scene, sceneName, group, groupName, script }, index, fault }

instance : Stored Diagnostic where
  write diagnostic := .object [
    ("scene", write diagnostic.origin.scene), ("scene_name", write diagnostic.origin.sceneName),
    ("group", write diagnostic.origin.group), ("group_name", write diagnostic.origin.groupName),
    ("script", write diagnostic.origin.script), ("instruction_index", write diagnostic.index),
    ("kind", write diagnostic.fault)]
  read := readRecord
    ["scene", "scene_name", "group", "group_name", "script", "instruction_index", "kind"]
    fun fields =>
      diagnosticOf <$> fields.required "scene" <*> fields.required "scene_name" <*>
        fields.required "group" <*> fields.required "group_name" <*> fields.required "script" <*>
        fields.required "instruction_index" <*> fields.required "kind"

end SceneScript.Stored
