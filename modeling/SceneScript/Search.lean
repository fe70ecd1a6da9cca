/-
**Searching a scene for instructions.**

A query describes instructions; `Scene.findAll` lists where they are, in the order of groups,
scripts and instructions, and `Scene.findNext?` and `Scene.findPrevious?` step through that list.

A variable is named by a bank and an address. The bank selectors of an instruction come first, two
to a byte; the n-th variable operand uses the n-th selector. Bank 0 marks a literal.
-/

import SceneScript.Scene

namespace SceneScript

/-- What to search for. -/
inductive Query where
  | opcode (code : UInt8)
  /-- A use of a variable; with a value, together with that literal. -/
  | var (bank address : UInt8) (value : Option Int64)
  /-- A request to a script of a group. -/
  | exec (group script : UInt8)
  /-- A change to another scene. -/
  | mapJump (scene : UInt16)
  /-- A text that is shown. -/
  | text (id : UInt8)
deriving DecidableEq

/-- The place of an instruction in a scene. -/
structure Location where
  group : UInt8
  script : UInt8
  index : Nat
deriving DecidableEq

namespace Instruction

/-- The number in the operand at a given place. -/
def scalarAt? (instruction : Instruction) (place : Nat) : Option Int64 :=
  instruction.operands[place]?.bind Operand.scalar?

/-- The number of the text that the instruction shows: its second operand that is not a bank
selector. -/
def textId? (instruction : Instruction) : Option Int64 :=
  let operands := instruction.shapedOperands.filter fun (shape, _) => shape != .bankAddress
  operands[1]?.bind fun (_, operand) => operand.scalar?

/-- The two bank selectors of a byte, the high one first. -/
def selectors (value : Int64) : List UInt8 :=
  let byte := (value.toInt % 256).toNat
  [(byte / 16).toUInt8, (byte % 16).toUInt8]

/-- The bank selectors of an instruction. -/
def banks (instruction : Instruction) : List UInt8 :=
  (instruction.shapedOperands.filterMap fun (shape, operand) =>
    if shape == .bankAddress then operand.scalar? else none).flatMap selectors

/-- The variable operands of an instruction with their banks. -/
def varRefs (instruction : Instruction) : List (UInt8 × Int64) :=
  let banks := instruction.banks
  let refs := instruction.shapedOperands.filter fun (shape, _) => shape.isVarRef
  refs.zipIdx.filterMap fun ((_, operand), n) => do
    return (← banks[n]?, ← operand.scalar?)

end Instruction

namespace Query

/-- Whether a signed number is a given unsigned one. -/
def equals (wanted : Nat) (value : Int64) : Bool := value.toInt == (wanted : Int)

/-- Whether an instruction is one of those searched for. Those with an unknown code never are. -/
def accepts (query : Query) (instruction : Instruction) : Bool :=
  match instruction.opcode? with
  | none => false
  | some row =>
    match query with
    | .opcode code => row.code == code
    | var bank address value =>
      let refs := instruction.varRefs
      bank != 0 && refs.any (fun (b, a) => b == bank && equals address.toNat a) &&
        match value with
        | none => true
        | some literal => refs.any fun (b, a) => b == 0 && a == literal
    | exec group script =>
      row.flags.contains .exec &&
        (instruction.scalarAt? 0).any (equals group.toNat) &&
        (instruction.scalarAt? 1).any fun value => value.toInt % 32 == (script.toNat : Int)
    | mapJump scene =>
      row.flags.contains .mapJump && (instruction.scalarAt? 0).any (equals scene.toNat)
    | text id => row.flags.contains .text && instruction.textId?.any (equals id.toNat)

end Query

namespace Scene

/-- All instructions of a scene with their places, in order. -/
def instructions (scene : Scene) : List (Location × Instruction) :=
  scene.groups.flatMap fun group =>
    group.entries.flatMap fun entry =>
      entry.script.instructions.zipIdx.map fun (instruction, index) =>
        ({ group := group.id, script := entry.script.id, index }, instruction)

/-- The places of all instructions that a query describes, in order. -/
def findAll (scene : Scene) (query : Query) : List Location :=
  (scene.instructions.filter fun (_, instruction) => query.accepts instruction).map Prod.fst

/-- Every use of a variable with its bank and address, in order. Literals are left out, and so are
addresses that do not fit two bytes. -/
def allVars (scene : Scene) : List (UInt8 × UInt16 × Location) :=
  scene.instructions.flatMap fun (location, instruction) =>
    instruction.varRefs.filterMap fun (bank, address) =>
      if bank != 0 && 0 ≤ address.toInt && address.toInt < 65536 then
        some (bank, address.toInt.toNat.toUInt16, location)
      else none

/-- A location as places of its group, script and instruction, for comparisons. -/
def orderKey? (scene : Scene) (location : Location) : Option (Nat × Nat × Nat) := do
  let groupPlace ← scene.place? location.group
  let group ← scene.groups[groupPlace]?
  let scriptPlace ← group.place? location.script
  return (groupPlace, scriptPlace, location.index)

/-- Whether one place comes before another. -/
def keyLess (first second : Nat × Nat × Nat) : Bool :=
  first.1 < second.1 || first.1 == second.1 &&
    (first.2.1 < second.2.1 || first.2.1 == second.2.1 && first.2.2 < second.2.2)

/-- The first match behind a location, or the first match of all. None if the location is not in the
scene. -/
def findNext? (scene : Scene) (query : Query) (after : Option Location) : Option Location :=
  let found := scene.findAll query
  match after with
  | none => found.head?
  | some location => do
    let start ← scene.orderKey? location
    found.find? fun candidate => (scene.orderKey? candidate).any (keyLess start)

/-- The last match before a location, or the last match of all. None if the location is not in the
scene. -/
def findPrevious? (scene : Scene) (query : Query) (before : Option Location) : Option Location :=
  let found := scene.findAll query
  match before with
  | none => found.getLast?
  | some location => do
    let limit ← scene.orderKey? location
    found.reverse.find? fun candidate =>
      (scene.orderKey? candidate).any fun key => keyLess key limit

end Scene

end SceneScript
