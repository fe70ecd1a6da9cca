/-
**Operand values and their bytes.**

An operand is a number, a label, an encoded branch offset or a payload. `Operand.encode` writes it
in a given shape: all of its bytes, or an error that says why the shape cannot hold it.
-/

import SceneScript.Shape
import SceneScript.Text.Number
import SceneScript.Word

namespace SceneScript

/-- The value of one operand. -/
inductive Operand where
  | scalar (value : Int64)
  /-- A destination that has no place yet, by the number of its label. -/
  | label (id : Nat)
  /-- An encoded destination: a distance in a short branch, a place in a long one. -/
  | offset (value : Int32)
  /-- A payload, without the byte that counts it. -/
  | bytes (payload : List UInt8)
deriving DecidableEq

/-- Why an operand or an instruction cannot be read or written. -/
inductive OperandError where
  /-- Fewer bytes are left than a read needs. -/
  | truncated (offset needed available : Nat)
  | outOfRange (shape : Shape) (value : Int)
  /-- The operand is of a kind that the shape cannot hold. -/
  | mismatch (shape : Shape) (found : Operand)
  /-- The byte in front of a payload says something impossible. -/
  | badBlockSize (size : Nat)
  | arity (expected found : Nat)
  | unknownOpcode (code : UInt8)
deriving DecidableEq

namespace Operand

def scalar? : Operand → Option Int64
  | scalar value => some value
  | _ => none

def label? : Operand → Option Nat
  | label id => some id
  | _ => none

/-- What an operand is, in messages. -/
def describe : Operand → String
  | scalar _ => "a scalar"
  | label _ => "an unresolved label"
  | offset _ => "a branch offset"
  | bytes _ => "a byte payload"

/-- The bytes of an unsigned word; none if the value does not fit. -/
def unsignedBytes? (width : Nat) (value : Int) : Option (List UInt8) :=
  if 0 ≤ value ∧ value < (Nat.pow 256 width : Nat) then
    some (Word.toBytes width value.toNat)
  else none

/-- The bytes of a two's complement word; none if the value does not fit. -/
def signedBytes? (width : Nat) (value : Int) : Option (List UInt8) :=
  let half : Int := (Nat.pow 2 (8 * width - 1) : Nat)
  if -half ≤ value ∧ value < half then
    some (Word.toBytes width (Text.twosComplement (8 * width) value))
  else none

/-- The bytes of an operand in a given shape. -/
def encode (shape : Shape) (operand : Operand) : Except OperandError (List UInt8) :=
  match shape.coding, operand with
  | .unsigned width, scalar value =>
    match unsignedBytes? width value.toInt with
    | some written => .ok written
    | none => .error (.outOfRange shape value.toInt)
  | .signed width, scalar value =>
    match signedBytes? width value.toInt with
    | some written => .ok written
    | none => .error (.outOfRange shape value.toInt)
  | .branch width, offset value =>
    match unsignedBytes? width value.toInt with
    | some written => .ok written
    | none => .error (.outOfRange shape value.toInt)
  | .block overhead limit, bytes payload =>
    let size := payload.length + overhead
    if size ≤ limit then .ok (size.toUInt8 :: payload) else .error (.outOfRange shape size)
  | _, _ => .error (.mismatch shape operand)

/-- The number of bytes of an operand in a given shape. A shape of fixed width does not look at the
value; a block has a length only if it holds a payload. -/
def size? (shape : Shape) (operand : Operand) : Option Nat :=
  match shape.width?, operand with
  | some width, _ => some width
  | none, bytes payload => some (payload.length + 1)
  | none, _ => none

end Operand

open Text in
/-- The wording of an operand error. -/
def OperandError.message : OperandError → String
  | truncated offset needed available =>
    let place := hexPadded 4 offset
    s!"operand at {place} needs {needed} byte(s), {available} left"
  | outOfRange shape value => s!"value {value} does not fit a {shape.name} operand"
  | mismatch shape found => s!"{shape.name} operand cannot hold {found.describe}"
  | badBlockSize size => s!"block size {size} does not fit its header"
  | arity expected found => s!"expected {expected} operand(s), found {found}"
  | unknownOpcode code => s!"unknown opcode {hexPadded 2 code.toNat}"

end SceneScript
