/-
**From a script to bytes.**

`Script.build` checks the labels and the instructions, lays the branches out, checks the result, and
writes the bytes; or it reports all that it found, in the order of the instructions.
`Script.assemble` says in addition where the script belongs.

The steps, each with its findings:

* `duplicateLabels`: a name that stands at two positions;
* `Slot.prepare`: unknown codes, operands that do not fit, labels that are missing or on the wrong
  side;
* `Layout.settle`: the widths of the branches; if they do not settle, nothing more is checked;
* `unreached` and `oversize`: branches without a long form that are out of reach, and scripts that
  are too long;
* `emit`: the bytes.
-/

import SceneScript.Assembly.Layout
import Std.Data.HashSet

namespace SceneScript

/-- An assembled script. -/
structure Assembly where
  bytes : List UInt8
  /-- The instructions as they were written: final opcodes, and destinations as numbers. -/
  instructions : List Instruction
  /-- The place of each instruction, and then the end. -/
  offsets : Array Nat
  passes : Nat
deriving DecidableEq

namespace Assembly

/-- The length as two bytes hold it. -/
def length16 (assembly : Assembly) : UInt16 := assembly.bytes.length.toUInt16

/-! ### Checks -/

/-- One step of the search for duplicates: the names seen so far, and what was found. -/
def noteLabel : Std.HashSet String × List Finding → Label → Std.HashSet String × List Finding :=
  fun (seen, found) label =>
    match label.position with
    | none => (seen, found)
    | some index =>
      if seen.contains label.name then
        (seen, { index, fault := .duplicateLabel label.name } :: found)
      else (seen.insert label.name, found)

/-- The labels whose name a label before them has too, among those that have a position. -/
def duplicateLabels (labels : Array Label) : List Finding :=
  (labels.foldl noteLabel (∅, [])).2.reverse

/-- What is wrong with each instruction alone, with the index of the instruction. -/
def located (prepared : List (Slot × List Fault)) : List Finding :=
  prepared.zipIdx.flatMap fun item =>
    item.1.2.map fun fault => { index := item.2, fault := fault }

/-- The branches that stayed short and are out of reach. -/
def unreached (labels : Array Label) (layout : Layout) : List Finding :=
  layout.slots.zipIdx.filterMap fun (slot, index) =>
    match slot.target with
    | some target =>
      if slot.outOfReach layout.offsets index then
        let name := Slot.labelName labels target.label
        some { index, fault := .unreachableLabel name .needsLongForm }
      else none
    | none => none

/-- A script that is too long, found at the first instruction that ends behind the limit. -/
def oversize (layout : Layout) : List Finding :=
  if layout.total ≤ maxScriptLength then []
  else
    let ends := layout.offsets.toList.drop 1
    let index := (ends.findIdx? (maxScriptLength < ·)).getD 0
    [{ index, fault := .scriptTooLarge layout.total }]

/-! ### Writing -/

/-- The number that leads a branch to its target: the place itself in a long branch, the distance in
a short one. -/
def destinationValue (offsets : Array Nat) (index : Nat) (slot : Slot) (opcode : Opcode)
    (target : Target) : Int :=
  if opcode.flow.isLong then offsets.getD target.index 0 else slot.distance offsets index target

/-- The instruction of a slot as it is written: the slot's opcode, and the number that leads to its
target. -/
def resolve (offsets : Array Nat) (index : Nat) (slot : Slot) (opcode : Opcode)
    (operands : List Operand) : Instruction :=
  match slot.target, opcode.branchOperand? with
  | some target, some place =>
    let value := destinationValue offsets index slot opcode target
    { opcode := opcode.code, operands := operands.set place (.offset (Int32.ofInt value)) }
  | _, _ => { opcode := opcode.code, operands }

/-- The written form of one slot, with its bytes. -/
def emitSlot (offsets : Array Nat) (index : Nat) (slot : Slot) (instruction : Instruction) :
    Except Finding (Instruction × List UInt8) :=
  match slot.opcode with
  | none => .error { index, fault := .unknownOpcode instruction.opcode }
  | some opcode =>
    let resolved := resolve offsets index slot opcode instruction.operands
    match resolved.encode with
    | .ok bytes => .ok (resolved, bytes)
    | .error cause => .error { index, fault := .invalidOperand 0 cause.message }

/-- The bytes of a layout. -/
def emit (layout : Layout) (instructions : List Instruction) : Except Finding Assembly := do
  let written ← (layout.slots.zip instructions).zipIdx.mapM
    fun ((slot, instruction), index) => emitSlot layout.offsets index slot instruction
  return {
    bytes := written.flatMap Prod.snd
    instructions := written.map Prod.fst
    offsets := layout.offsets
    passes := layout.passes }

end Assembly

/-- The slots of a script with what is wrong with each instruction alone. -/
def Script.prepared (config : AssemblyConfig) (script : Script) : List (Slot × List Fault) :=
  let size := script.size
  script.instructions.mapIdx fun index instruction =>
    Slot.prepare config script.labels size index instruction

open Assembly in
/-- The bytes of a script, or all that is wrong with it. -/
def Script.build (config : AssemblyConfig) (script : Script) :
    Except (List Finding) Assembly :=
  let labels := script.labels
  let size := script.size
  let prepared := script.prepared config
  let early := duplicateLabels labels ++ located prepared
  let limit := Layout.passLimit config size
  match Layout.settle limit 0 (prepared.map Prod.fst) with
  | none => .error (early ++ [{ index := size - 1, fault := .didNotSettle limit }])
  | some layout =>
    let findings := early ++ unreached labels layout ++ oversize layout
    if findings.isEmpty then
      match emit layout script.instructions with
      | .ok assembly => .ok assembly
      | .error finding => .error [finding]
    else .error (findings.mergeSort fun first second => first.index ≤ second.index)

/-- The bytes of a script of a scene, or all that is wrong with it. -/
def Script.assemble (script : Script) (origin : Origin) (config : AssemblyConfig := {}) :
    Except (List Diagnostic) Assembly :=
  match script.build config with
  | .ok assembly => .ok assembly
  | .error findings => .error (findings.map fun finding => { finding with origin })

end SceneScript
