/-
**Scripts: instructions with labels between them.**

A label is a position, not an instruction: a label at `i` stands before the instruction with index
`i`, and one at the number of instructions stands at the end. Branches name a label by its place
among the labels; the number that a label carries itself is only data.

* `Script.labelsAt` are the labels at one position, `Script.labelTable` those at all positions.
* `Script.ofParts` builds a script whose labels carry their places, and lets branches follow.
* `Script.equivalent` compares two scripts as programs: label names, and the width and direction of
  branches, do not count.
-/

import SceneScript.Instruction

namespace SceneScript

/-- A named position in a script. -/
structure Label where
  id : Nat
  name : String
  /-- The index of the instruction that the label stands before; none while it has no place. -/
  position : Option Nat
deriving DecidableEq

/-- A list of instructions and the labels that they branch to. -/
structure Script where
  id : UInt8
  instructions : List Instruction := []
  labels : Array Label := #[]
deriving DecidableEq

namespace Script

/-- The number of instructions. -/
def size (script : Script) : Nat := script.instructions.length

/-- The label that branches name by `id`. -/
def label? (script : Script) (id : Nat) : Option Label := script.labels[id]?

/-- Where the label that branches name by `id` stands. -/
def position? (script : Script) (id : Nat) : Option Nat :=
  (script.label? id).bind Label.position

/-- The name of the label that branches name by `id`; a number sign and `id` if there is none. -/
def labelName (script : Script) (id : Nat) : String :=
  match script.label? id with
  | some label => label.name
  | none => s!"#{id}"

/-- The number that the first label with a given name carries. -/
def labelNamed? (script : Script) (name : String) : Option Nat :=
  (script.labels.find? (·.name == name)).map Label.id

/-- The labels right before the instruction with a given index. -/
def labelsAt (script : Script) (index : Nat) : List Label :=
  script.labels.toList.filter (·.position == some index)

/-- The labels at each position up to the end, for scripts with many labels. -/
def labelTable (script : Script) : Array (List Label) :=
  script.labels.foldr
    (fun label table =>
      match label.position with
      | some place => table.modify place (label :: ·)
      | none => table)
    (Array.replicate (script.size + 1) [])

/-- The indices of the instructions that branch to a label. -/
def references (script : Script) (id : Nat) : List Nat :=
  (script.instructions.zipIdx.filter (·.1.target? == some id)).map Prod.snd

/-! ### Building a script from parts -/

/-- An operand with the number of a label replaced by the place of the first label that has it. -/
def relocate (labels : Array Label) : Operand → Operand
  | .label id => .label ((labels.findIdx? (·.id == id)).getD id)
  | operand => operand

/-- A script of given instructions and labels. Each label then carries its own place, and branches
go on naming the label that they named; if two labels carried one number, the first. -/
def ofParts (id : UInt8) (instructions : List Instruction) (labels : Array Label) :
    Script where
  id
  instructions := instructions.map fun instruction =>
    { instruction with operands := instruction.operands.map (relocate labels) }
  labels := labels.mapIdx fun place label => { label with id := place }

/-! ### Equivalence -/

/-- The code that stands for an opcode in comparisons: that of the short form, and for a jump that
of the short jump forward. -/
def canonicalCode (opcode : Opcode) : UInt8 :=
  let short := opcode.family
  if short.flow.isJump && short.flow.isBackward then
    (short.reversed?.map Opcode.code).getD short.code
  else short.code

/-- Whether two operands mean the same in their scripts: labels do if they stand at one position. -/
def sameOperand (left right : Script) : Operand → Operand → Bool
  | .label x, .label y =>
    match left.position? x, right.position? y with
    | some place, some other => place == other
    | _, _ => false
  | x, y => x == y

/-- Whether two instructions mean the same in their scripts. Those with an unknown code have to be
equal. -/
def sameInstruction (left right : Script) (x y : Instruction) : Bool :=
  match x.opcode?, y.opcode? with
  | some opcode, some other =>
    canonicalCode opcode == canonicalCode other && x.operands.length == y.operands.length &&
      (x.operands.zip y.operands).all fun (a, b) => sameOperand left right a b
  | _, _ => x == y

/-- Whether two scripts are the same program up to the names of labels and the width and direction
of branches. -/
def equivalent (left right : Script) : Bool :=
  left.size == right.size &&
    (left.instructions.zip right.instructions).all fun (x, y) => sameInstruction left right x y

end Script

end SceneScript
