/-
**Instructions: an opcode with its operands.**

An instruction may hold any code and any operands; the catalogue says which of them can be written.

* `Instruction.write` gives the bytes up to the first operand that cannot be written, and why it
  stopped; `Instruction.encode` is the same with all bytes or none.
* `Instruction.decode` reads an instruction and says where a broken one starts.
-/

import SceneScript.Cursor
import SceneScript.Opcode.Catalogue

namespace SceneScript

/-- An instruction code with its operands. -/
structure Instruction where
  opcode : UInt8
  operands : List Operand
deriving DecidableEq

/-- Why bytes are not a script. -/
inductive DecodeError where
  | unknownOpcode (offset : Nat) (code : UInt8)
  /-- The bytes end inside the instruction that starts at `offset`. -/
  | truncatedInstruction (offset : Nat)
  /-- The branch at `offset` goes to a place where no instruction starts. -/
  | misalignedTarget (offset : Nat) (target : Int)
  | malformedOperand (offset : Nat) (cause : OperandError)
deriving DecidableEq

open Text in
/-- The wording of a decode error. -/
def DecodeError.message : DecodeError → String
  | unknownOpcode offset code =>
    s!"unknown opcode {hexPadded 2 code.toNat} at {hexPadded 4 offset}"
  | truncatedInstruction offset =>
    s!"instruction at {hexPadded 4 offset} runs past the end of the script"
  | misalignedTarget offset target =>
    let place := hexPadded 4 (twosComplement 64 target)
    s!"branch at {hexPadded 4 offset} targets {place}, which is not an instruction boundary"
  | malformedOperand offset cause =>
    s!"malformed operand in instruction at {hexPadded 4 offset}: {cause.message}"

namespace Instruction

/-! ### Making instructions -/

/-- An instruction whose operands are plain numbers. -/
def scalars (opcode : UInt8) (values : List Int64) : Instruction :=
  { opcode, operands := values.map .scalar }

/-- The instruction that does nothing. -/
def nop : Instruction := { opcode := 0x5F, operands := [] }

/-- The instruction that ends a script. -/
def ret : Instruction := { opcode := 0x00, operands := [] }

/-- An unconditional jump; assembly picks its direction and width. -/
def jump (target : Nat) : Instruction := { opcode := 0x10, operands := [.label target] }

/-- A branch whose last operand is its destination. -/
def branch (opcode : UInt8) (leading : List Int64) (target : Nat) : Instruction :=
  { opcode, operands := leading.map .scalar ++ [.label target] }

/-! ### Looking at instructions -/

/-- The catalogue's row for the instruction. -/
def opcode? (instruction : Instruction) : Option Opcode := Opcode.ofCode? instruction.opcode

def mnemonic (instruction : Instruction) : String :=
  match instruction.opcode? with
  | some opcode => opcode.mnemonic
  | none => "???"

/-- Whether the instruction has a destination in its script. -/
def isBranch (instruction : Instruction) : Bool :=
  match instruction.opcode? with
  | some opcode => opcode.flow.hasTarget
  | none => false

/-- The place of the operand that holds the destination. -/
def branchOperand? (instruction : Instruction) : Option Nat :=
  instruction.opcode?.bind Opcode.branchOperand?

/-- The label that the instruction branches to. -/
def target? (instruction : Instruction) : Option Nat :=
  instruction.branchOperand?.bind fun place => instruction.operands[place]?.bind Operand.label?

/-- The instruction with its destination changed; none if it has no such operand. -/
def retarget? (instruction : Instruction) (target : Nat) : Option Instruction :=
  match instruction.branchOperand? with
  | some place =>
    if place < instruction.operands.length then
      some { instruction with operands := instruction.operands.set place (.label target) }
    else none
  | none => none

/-- The operands with their shapes, as far as both lists reach. -/
def shapedOperands (instruction : Instruction) : List (Shape × Operand) :=
  match instruction.opcode? with
  | some opcode => opcode.shapes.zip instruction.operands
  | none => []

/-! ### Bytes -/

/-- The length of an instruction in bytes. -/
def size? (instruction : Instruction) : Option Nat :=
  match instruction.opcode? with
  | some opcode =>
    (opcode.shapes.zip instruction.operands).foldlM
      (fun size (shape, operand) => (operand.size? shape).map (size + ·)) 1
  | none => none

/-- The bytes of operands up to the first that cannot be written, and why it cannot. -/
def writeOperands : List (Shape × Operand) → List UInt8 × Option OperandError
  | [] => ([], none)
  | (shape, operand) :: rest =>
    match operand.encode shape with
    | .ok written =>
      let (following, failure) := writeOperands rest
      (written ++ following, failure)
    | .error cause => ([], some cause)

/-- The bytes of an instruction up to the first operand that cannot be written, and why it cannot.
An unknown code or a wrong number of operands writes nothing. -/
def write (instruction : Instruction) : List UInt8 × Option OperandError :=
  match instruction.opcode? with
  | none => ([], some (.unknownOpcode instruction.opcode))
  | some opcode =>
    if opcode.shapes.length = instruction.operands.length then
      let (written, failure) := writeOperands (opcode.shapes.zip instruction.operands)
      (instruction.opcode :: written, failure)
    else ([], some (.arity opcode.shapes.length instruction.operands.length))

/-- The bytes of an instruction. -/
def encode (instruction : Instruction) : Except OperandError (List UInt8) :=
  match instruction.write with
  | (written, none) => .ok written
  | (_, some cause) => .error cause

/-- What an operand error means for the instruction that starts at `offset`. -/
def decodeError (offset : Nat) : OperandError → DecodeError
  | .truncated _ _ _ => .truncatedInstruction offset
  | cause => .malformedOperand offset cause

/-- Reads what follows the code of the instruction that starts at `offset`. -/
def decodeOperands (offset : Nat) (code : UInt8) : Reader DecodeError Instruction :=
  match Opcode.ofCode? code with
  | none => throw (.unknownOpcode offset code)
  | some opcode => do
    let operands ← EStateM.adaptExcept (decodeError offset) (opcode.shapes.mapM Operand.decode)
    return { opcode := code, operands }

/-- Reads the instruction at the cursor. Its destination stays a number. -/
def decode : Reader DecodeError Instruction := do
  let offset := (← get).pos
  let code ← EStateM.adaptExcept (decodeError offset) (Reader.word 1)
  decodeOperands offset code.toUInt8

theorem advances_decodeOperands (offset : Nat) (code : UInt8) :
    Reader.Advances (decodeOperands offset code) := by
  unfold decodeOperands
  split
  · intro cursor instruction next accepted
    contradiction
  · exact ((Reader.Advances.mapM Operand.advances_decode _).adapt _).bind
      fun _ => Reader.Advances.pure _

/-- An instruction that was read took at least one byte. -/
theorem rest_lt_of_decode {cursor next : Cursor} {instruction : Instruction}
    (accepted : decode cursor = .ok instruction next) :
    next.rest.length < cursor.rest.length := by
  have run : (EStateM.adaptExcept (decodeError cursor.pos) (Reader.word 1) >>= fun code =>
      decodeOperands cursor.pos code.toUInt8) cursor = .ok instruction next := accepted
  simp only [Bind.bind, EStateM.bind, EStateM.adaptExcept] at run
  cases read : Reader.word 1 cursor with
  | error cause stopped =>
    rw [read] at run
    contradiction
  | ok code middle =>
    rw [read] at run
    obtain ⟨used, split, _⟩ := advances_decodeOperands _ _ middle instruction next run
    have took := Reader.rest_of_word read
    rw [split, List.length_append] at took
    omega

end Instruction

end SceneScript
