/-
**Slots: instructions on their way to bytes.**

Before layout each instruction gets a slot: the opcode in its short form, its length, and where it
branches to. `Slot.prepare` makes the slot and finds what is wrong with the instruction alone. A
branch that can never be laid out has no target, so that layout leaves it in peace.
-/

import SceneScript.Diagnostic
import SceneScript.Script

namespace SceneScript

/-- Settings of the assembler. -/
structure AssemblyConfig where
  /-- Whether a jump may be turned to the direction in which its label lies. -/
  flipJumps : Bool := true
  /-- How many layout passes are allowed; as many as there are instructions if not given. -/
  maxPasses : Option Nat := none
deriving DecidableEq

/-- Where a branch goes. -/
structure Target where
  label : Nat
  /-- The index of the instruction that the label stands before. -/
  index : Nat
  /-- Whether the label stands before the branch. -/
  backward : Bool
deriving DecidableEq

/-- An instruction whose width is not final. -/
structure Slot where
  /-- The opcode to be written; none if the code is unknown. -/
  opcode : Option Opcode
  /-- The length in bytes. -/
  size : Nat
  target : Option Target
deriving DecidableEq

namespace Slot

/-- What is wrong with operand number `place`. A destination has to be a label. -/
def operandFault? (place : Nat) (shape : Shape) (operand : Operand) : Option Fault :=
  if shape.isBranch then
    match operand with
    | .label _ => none
    | _ => some (.invalidOperand place "branch operands must reference a label")
  else
    match operand.encode shape with
    | .ok _ => none
    | .error cause => some (.invalidOperand place cause.message)

/-- What is wrong with the operands of an instruction. -/
def operandFaults (opcode : Opcode) (operands : List Operand) : List Fault :=
  let expected := opcode.shapes.length
  let found := operands.length
  if expected = found then
    (opcode.shapes.zip operands).zipIdx.filterMap fun ((shape, operand), place) =>
      operandFault? place shape operand
  else
    [.invalidOperand (min found expected)
      s!"{opcode.mnemonic} takes {expected} operand(s), found {found}"]

/-- The length of an instruction with a given opcode. -/
def length (opcode : Opcode) (operands : List Operand) : Nat :=
  let sizes := (opcode.shapes.zip operands).map fun (shape, operand) => (operand.size? shape).getD 1
  sizes.foldr (· + ·) 1

/-- The opcode that branches to the given side, or why there is none. -/
def aim (config : AssemblyConfig) (opcode : Opcode) (backward : Bool) :
    Except Unreachable Opcode :=
  if opcode.flow.isBackward = backward then .ok opcode
  else
    match opcode.reversed?, config.flipJumps with
    | some reversed, true => .ok reversed
    | _, _ => .error (if backward then .backwardReference else .forwardReference)

/-- The name of a label in messages. -/
def labelName (labels : Array Label) (id : Nat) : String :=
  match labels[id]? with
  | some label => label.name
  | none => s!"#{id}"

/-- The slot of the instruction with a given index in a script of `size` instructions, and what is
wrong with the instruction. -/
def prepare (config : AssemblyConfig) (labels : Array Label) (size index : Nat)
    (instruction : Instruction) : Slot × List Fault :=
  match instruction.opcode? with
  | none => ({ opcode := none, size := 1, target := none }, [.unknownOpcode instruction.opcode])
  | some opcode =>
    let operands := instruction.operands
    let short := opcode.family
    let faults := operandFaults short operands
    let untargeted := { opcode := some short, size := length short operands, target := none }
    match instruction.target? with
    | none => (untargeted, faults)
    | some label =>
      match (labels[label]?.bind Label.position).filter (· ≤ size) with
      | none => (untargeted, faults ++ [.undefinedLabel (labelName labels label)])
      | some place =>
        let backward : Bool := place ≤ index
        match aim config short backward with
        | .ok aimed =>
          let target := { label, index := place, backward }
          ({ opcode := some aimed, size := length aimed operands, target := some target }, faults)
        | .error reason =>
          (untargeted, faults ++ [.unreachableLabel (labelName labels label) reason])

end Slot

end SceneScript
