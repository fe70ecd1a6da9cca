/-
**Shapes of operands.**

An opcode lists the shape of each operand. A shape says how the operand is coded, and separately
what the operand means to the game: a plain number, a variable, a pair of bank selectors, a
destination or a payload. The coding (`Shape.coding`) is all that reading and writing bytes depends
on.
-/

namespace SceneScript

/-- The shape of one operand. -/
inductive Shape where
  | uint8
  | int16
  | uint16
  | uint32
  /-- The address of a variable, in one byte. -/
  | varRef8
  /-- The address of a variable, or a literal, in two bytes. -/
  | varRef16
  /-- Two bank selectors of four bits, the high one first. -/
  | bankAddress
  /-- The distance to a destination, in one byte. -/
  | shortBranch
  /-- A destination counted from the start of the script, in two bytes. -/
  | longBranch
  /-- A payload behind a byte that counts it, itself and the opcode. -/
  | sizedBlock
  /-- A payload behind a byte that counts it. -/
  | countedBlock
deriving DecidableEq

/-- How an operand is laid out in bytes. -/
inductive Coding where
  /-- An unsigned word of `width` bytes. -/
  | unsigned (width : Nat)
  /-- A two's complement word of `width` bytes. -/
  | signed (width : Nat)
  /-- A branch offset in an unsigned word of `width` bytes. -/
  | branch (width : Nat)
  /-- A payload behind a byte that holds its length plus `overhead` and is at most `limit`. -/
  | block (overhead limit : Nat)
deriving DecidableEq

namespace Shape

/-- The longest payload of a counted block. -/
def maxCounted : Nat := 128

def coding : Shape → Coding
  | uint8 | varRef8 | bankAddress => .unsigned 1
  | uint16 | varRef16 => .unsigned 2
  | uint32 => .unsigned 4
  | int16 => .signed 2
  | shortBranch => .branch 1
  | longBranch => .branch 2
  | sizedBlock => .block 2 255
  | countedBlock => .block 0 maxCounted

/-- The number of bytes of an operand of this shape, if that does not depend on its value. -/
def width? (shape : Shape) : Option Nat :=
  match shape.coding with
  | .unsigned width | .signed width | .branch width => some width
  | .block _ _ => none

/-- Whether operands of this shape hold a destination. -/
def isBranch (shape : Shape) : Bool :=
  match shape.coding with
  | .branch _ => true
  | _ => false

/-- Whether operands of this shape hold a payload. -/
def isBlock (shape : Shape) : Bool :=
  match shape.coding with
  | .block _ _ => true
  | _ => false

/-- Whether operands of this shape hold the address of a variable. -/
def isVarRef (shape : Shape) : Bool := shape = varRef8 || shape = varRef16

/-- All shapes, in the order in which they are listed. -/
def all : List Shape :=
  [uint8, int16, uint16, uint32, varRef8, varRef16, bankAddress, shortBranch, longBranch,
    sizedBlock, countedBlock]

/-- The name of a shape in messages and in the stored form. -/
def name : Shape → String
  | uint8 => "UInt8"
  | int16 => "Int16"
  | uint16 => "UInt16"
  | uint32 => "UInt32"
  | varRef8 => "VarRef8"
  | varRef16 => "VarRef16"
  | bankAddress => "BankAddress"
  | shortBranch => "ShortBranchOffset"
  | longBranch => "LongBranchOffset"
  | sizedBlock => "SizedBlock"
  | countedBlock => "CountedBlock"

/-- The shape with a given name. -/
def ofName? (name : String) : Option Shape := all.find? (·.name == name)

end Shape

end SceneScript
