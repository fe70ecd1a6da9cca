/-
**Scripts as text.**

A listing has a line `name:` for each label and an indented line for each instruction: the mnemonic
and the operands, with commas between them. `Listing.text` prints it; `Listing.rows` gives the same
lines one by one, with the offset of each instruction.

Numbers are printed in hexadecimal, but signed words in decimal; bank selectors have two digits. A
negative number in hexadecimal stands as its two's complement.
-/

import SceneScript.Script

namespace SceneScript.Listing

open Text

/-- A payload, as its bytes in brackets. -/
def payloadText (payload : List UInt8) : String :=
  "[" ++ String.intercalate " " (payload.map hexByte) ++ "]"

/-- An operand of a given shape. -/
def operandText (script : Script) (shape : Shape) : Operand → String
  | .scalar value =>
    match shape with
    | .bankAddress => hexPadded 2 (twosComplement 64 value.toInt)
    | .int16 => toString value.toInt
    | _ => hex (twosComplement 64 value.toInt)
  | .label id => script.labelName id
  | .offset value => "@" ++ hex (twosComplement 32 value.toInt)
  | .bytes payload => payloadText payload

/-- An instruction: its mnemonic and its operands. An unknown code stands in place of a mnemonic. -/
def instructionText (script : Script) (instruction : Instruction) : String :=
  match instruction.opcode? with
  | none => s!"{instruction.mnemonic} {hexPadded 2 instruction.opcode.toNat}"
  | some opcode =>
    match opcode.shapes.zip instruction.operands with
    | [] => opcode.mnemonic
    | operands =>
      let texts := operands.map fun (shape, operand) => operandText script shape operand
      opcode.mnemonic ++ " " ++ String.intercalate ", " texts

/-- The line of a label. -/
def labelLine (label : Label) : String := label.name ++ ":\n"

/-- The line of an instruction. -/
def instructionLine (script : Script) (instruction : Instruction) : String :=
  "    " ++ instructionText script instruction ++ "\n"

/-- The listing of a script. Labels that have no place in it are left out. -/
def text (script : Script) : String :=
  let table := script.labelTable
  let body := script.instructions.zipIdx.flatMap fun (instruction, index) =>
    (table.getD index []).map labelLine ++ [instructionLine script instruction]
  String.join (body ++ (table.getD script.size []).map labelLine)

/-- An instruction of a listing with its offset and the names of the labels before it. -/
structure Row where
  offset : Nat
  labels : List String
  text : String
deriving DecidableEq

/-- The next row, after an instruction that ends at `offset`, and where it ends itself. `labels`
stand before it. If the instruction has no length, its index is the error. -/
def row (script : Script) (labels : List Label) (offset : Nat) (instruction : Instruction)
    (index : Nat) : Except Nat (Row × Nat) :=
  match instruction.size? with
  | some size => .ok
      ({ offset
         labels := labels.map Label.name
         text := instructionText script instruction },
        offset + size)
  | none => .error index

/-- The rows made so far, latest first, and where they end, with one more row. -/
def addRow (script : Script) (table : Array (List Label)) :
    List Row × Nat → Instruction × Nat → Except Nat (List Row × Nat) :=
  fun (done, offset) (instruction, index) => do
    let (next, after) ← row script (table.getD index []) offset instruction index
    return (next :: done, after)

/-- The rows of a listing, one per instruction, or the index of an instruction without a length. -/
def rows (script : Script) : Except Nat (List Row) := do
  let (done, _) ← script.instructions.zipIdx.foldlM (addRow script script.labelTable) ([], 0)
  return done.reverse

end SceneScript.Listing
