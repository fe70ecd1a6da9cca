/-
**Opcodes: what an instruction code means.**

An opcode has a mnemonic, the shapes of its operands, the way it passes control on, and flags for
searches. A branch comes in two widths whose codes name each other (`twin`).
-/

import SceneScript.Shape

namespace SceneScript

/-- The width of a branch: a short one holds a distance, a long one a place in the script. -/
inductive BranchWidth where
  | short
  | long
deriving DecidableEq

/-- The direction of an unconditional jump. -/
inductive Direction where
  | forward
  | backward
deriving DecidableEq

/-- How an opcode passes control on. -/
inductive Flow where
  /-- To the next instruction. -/
  | next
  /-- To the next instruction or to a destination. -/
  | conditional (width : BranchWidth)
  /-- Always to a destination on one side. -/
  | jump (direction : Direction) (width : BranchWidth)
  /-- A request to another script; no destination in this one. -/
  | call
  | ret
deriving DecidableEq

namespace Flow

/-- The width of a branch; none if there is no destination. -/
def width? : Flow → Option BranchWidth
  | conditional width | jump _ width => some width
  | next | call | ret => none

/-- Whether there is a destination in the script. -/
def hasTarget (flow : Flow) : Bool := flow.width?.isSome

def isLong (flow : Flow) : Bool := flow.width? = some .long

/-- Whether the destination lies before the branch. -/
def isBackward : Flow → Bool
  | jump .backward _ => true
  | _ => false

def isConditional : Flow → Bool
  | conditional _ => true
  | _ => false

def isJump : Flow → Bool
  | jump _ _ => true
  | _ => false

/-- All kinds of flow, in the order in which they are listed. -/
def all : List Flow :=
  [next, conditional .short, conditional .long, jump .forward .short, jump .forward .long,
    jump .backward .short, jump .backward .long, call, ret]

/-- The name of a kind of flow in the stored form. -/
def name : Flow → String
  | next => "None"
  | conditional .short => "ConditionalShort"
  | conditional .long => "ConditionalLong"
  | jump .forward .short => "UnconditionalForwardShort"
  | jump .forward .long => "UnconditionalForwardLong"
  | jump .backward .short => "UnconditionalBackwardShort"
  | jump .backward .long => "UnconditionalBackwardLong"
  | call => "Call"
  | ret => "Return"

/-- The kind of flow with a given name. -/
def ofName? (name : String) : Option Flow := all.find? (·.name == name)

end Flow

/-- What an opcode does that a search can ask for, one bit each. -/
structure Flags where
  bits : UInt8 := 0
deriving DecidableEq

namespace Flags

/-- Requests a script of another group. -/
def exec : Flags := ⟨1⟩

/-- Moves the player to another scene. -/
def mapJump : Flags := ⟨2⟩

/-- Shows a text, named by the second operand that is not a bank selector. -/
def text : Flags := ⟨4⟩

/-- Whether all of the given flags are set. -/
def contains (flags wanted : Flags) : Bool := flags.bits &&& wanted.bits = wanted.bits

/-- The flags of both. -/
def union (left right : Flags) : Flags := ⟨left.bits ||| right.bits⟩

end Flags

/-- What an instruction code means. -/
structure Opcode where
  code : UInt8
  mnemonic : String
  shapes : List Shape
  flow : Flow := .next
  /-- The code of the same branch in the other width. -/
  twin : Option UInt8 := none
  flags : Flags := {}
deriving DecidableEq

namespace Opcode

/-- The place of the operand that holds the destination. -/
def branchOperand? (opcode : Opcode) : Option Nat := opcode.shapes.findIdx? Shape.isBranch

/-- The length of the instruction in bytes, if that does not depend on its operands. -/
def fixedSize? (opcode : Opcode) : Option Nat :=
  opcode.shapes.foldlM (fun size shape => shape.width?.map (size + ·)) 1

end Opcode

end SceneScript
