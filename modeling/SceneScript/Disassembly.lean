/-
**From bytes to a script.**

The bytes are read as instructions, one after the other (`decodeAll`). Every destination has to be
the start of an instruction or the end of the bytes; each one becomes a label, numbered by the first
branch that goes there.

* `Placed.destination?` is the place that a decoded branch goes to.
* `boundaries` are the places where an instruction starts, and the end.
* `Script.disassemble` reads all of the bytes, `Script.disassembleFirst` a part of them.
-/

import SceneScript.Script
import Std.Data.HashMap
import Std.Data.HashSet

namespace SceneScript

/-- A decoded instruction with the bytes that it covers, from `offset` up to `next`. -/
structure Placed where
  offset : Nat
  instruction : Instruction
  next : Nat
deriving DecidableEq

/-- Where a decoded branch goes. A short one counts from its end, a long one from the start of the
script. -/
def Placed.destination? (placed : Placed) : Option Int := do
  let opcode ← placed.instruction.opcode?
  let place ← opcode.branchOperand?
  match ← placed.instruction.operands[place]? with
  | .offset raw =>
    match opcode.flow with
    | .conditional .short | .jump .forward .short => some (placed.next + raw.toInt)
    | .jump .backward .short => some (placed.next - raw.toInt)
    | .conditional .long | .jump _ .long => some raw.toInt
    | .next | .call | .ret => none
  | _ => none

namespace Disassembly

/-- Reads instructions until no bytes are left; `done` are those read before, latest first. -/
def decodeFrom (done : List Placed) (cursor : Cursor) : Except DecodeError (List Placed) :=
  if cursor.atEnd then .ok done.reverse
  else
    match read : Instruction.decode cursor with
    | .ok instruction next =>
      have _shorter := Instruction.rest_lt_of_decode read
      decodeFrom ({ offset := cursor.pos, instruction, next := next.pos } :: done) next
    | .error cause _ => .error cause
termination_by cursor.rest.length

/-- The instructions that the bytes are made of. -/
def decodeAll (bytes : List UInt8) : Except DecodeError (List Placed) :=
  decodeFrom [] (Cursor.ofBytes bytes)

/-- The index of the instruction that starts at each boundary; the end counts as one more. -/
def boundaries (placed : List Placed) (length : Nat) : Std.HashMap Nat Nat :=
  Std.HashMap.ofList (placed.map Placed.offset ++ [length]).zipIdx

/-- The index of the instruction that a branch goes to, if it is a branch. -/
def targetIndex (starts : Std.HashMap Nat Nat) (placed : Placed) :
    Except DecodeError (Option Nat) :=
  match placed.destination? with
  | none => .ok none
  | some target =>
    match target.toNat?.bind (starts[·]?) with
    | some index => .ok (some index)
    | none => .error (.misalignedTarget placed.offset target)

/-- One step of the search for distinct numbers: those seen so far, and those kept. -/
def keepNew : Std.HashSet Nat × List Nat → Nat → Std.HashSet Nat × List Nat :=
  fun (seen, kept) number =>
    if seen.contains number then (seen, kept) else (seen.insert number, number :: kept)

/-- The distinct numbers of a list, in the order in which they first stand in it. -/
def distinct (numbers : List Nat) : List Nat := (numbers.foldl keepNew (∅, [])).2.reverse

/-- The positions of the labels: the targets, each of them once. -/
def positions (targets : List (Option Nat)) : List Nat :=
  distinct (targets.filterMap fun target => target)

/-- The label with number `id` at a given position. -/
def synthesize (position id : Nat) : Label :=
  { id, name := s!"label_{id + 1}", position := some position }

/-- The script of decoded instructions, given the index that each branch goes to. -/
def script (id : UInt8) (placed : List Placed) (targets : List (Option Nat)) : Script :=
  let positions := positions targets
  let ids := Std.HashMap.ofList positions.zipIdx
  let link := fun (item : Placed) (target : Option Nat) =>
    ((target.bind (ids[·]?)).bind item.instruction.retarget?).getD item.instruction
  { id
    instructions := List.zipWith link placed targets
    labels := positions.toArray.mapIdx fun id position => synthesize position id }

end Disassembly

open Disassembly in
/-- The script that the bytes hold. -/
def Script.disassemble (id : UInt8) (bytes : List UInt8) : Except DecodeError Script := do
  let placed ← decodeAll bytes
  let targets ← placed.mapM (targetIndex (boundaries placed bytes.length))
  return Disassembly.script id placed targets

/-- The script that the first `length` bytes hold. If there are fewer, an instruction is missing at
their end. -/
def Script.disassembleFirst (id : UInt8) (bytes : List UInt8) (length : Nat) :
    Except DecodeError Script := do
  let view := bytes.take length
  if view.length < length then
    let _ ← Disassembly.decodeAll view
    throw (.truncatedInstruction view.length)
  disassemble id view

end SceneScript
