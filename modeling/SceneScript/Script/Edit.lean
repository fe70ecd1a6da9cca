/-
**Editing a script.**

An edit gives its reply together with the script that it leaves. It checks its indices and labels
first, and if they are wrong, it replies why and leaves the script as it was. Labels follow the
code:

* an instruction inserted at `i` comes after the labels at `i`, so labels behind `i` move up by one;
* when the instruction at `i` is removed, labels behind `i` move down by one;
* moving an instruction leaves all labels where they are.

Positions are numbers of 64 bits, and moving up leads from the last of them to the first. No edit
gives a label the last position, but a stored script can have one there.
-/

import SceneScript.Script

namespace SceneScript

/-- Why an edit is refused. -/
inductive EditError where
  | indexOutOfRange (index size : Nat)
  | noSuchLabel (id : Nat)
  | notABranch (index : Nat)
deriving DecidableEq

/-- The wording of an edit error. -/
def EditError.message : EditError → String
  | indexOutOfRange index size =>
    s!"instruction index {index} out of range (script has {size})"
  | noSuchLabel id => s!"no label with id LabelId({id})"
  | notABranch index => s!"instruction {index} is not a branch"

/-- A label with its position changed by `f`, if it has one. -/
def Label.shift (label : Label) (f : Nat → Nat) : Label :=
  { label with position := label.position.map f }

namespace Script

/-! ### Positions -/

/-- The last position that a label can have. -/
def lastPosition : Nat := 0xFFFFFFFFFFFFFFFF

/-- Where a label is moved when an instruction is put in at `index`. -/
def raised (index place : Nat) : Nat :=
  if index < place then if place = lastPosition then 0 else place + 1 else place

/-- Where a label is moved when the instruction at `index` is taken out. -/
def lowered (index place : Nat) : Nat := if index < place then place - 1 else place

/-- The refusal of an index that a script does not have. -/
def outOfRange (script : Script) (index : Nat) : EditError := .indexOutOfRange index script.size

/-! ### Instructions -/

/-- A script with more instructions at its end. -/
def append (script : Script) (instructions : List Instruction) : Script :=
  { script with instructions := script.instructions ++ instructions }

/-- A script with one more instruction at its end. -/
def push (script : Script) (instruction : Instruction) : Script := script.append [instruction]

/-- Puts an instruction in at `index`, behind the labels that stand there. -/
def insert (script : Script) (index : Nat) (instruction : Instruction) :
    Except EditError Unit × Script :=
  if index ≤ script.size then
    (.ok (), { script with
      instructions := script.instructions.insertIdx index instruction
      labels := script.labels.map fun label => label.shift (raised index) })
  else (.error (script.outOfRange index), script)

/-- Takes out the instruction at `index`, which is the reply. -/
def remove (script : Script) (index : Nat) : Except EditError Instruction × Script :=
  match script.instructions[index]? with
  | some instruction => (.ok instruction, { script with
      instructions := script.instructions.eraseIdx index
      labels := script.labels.map fun label => label.shift (lowered index) })
  | none => (.error (script.outOfRange index), script)

/-- Takes out the instruction at `source` and puts it in again at `destination`. -/
def move (script : Script) (source destination : Nat) : Except EditError Unit × Script :=
  match script.instructions[source]? with
  | none => (.error (script.outOfRange source), script)
  | some instruction =>
    if destination < script.size then
      (.ok (), { script with
        instructions := (script.instructions.eraseIdx source).insertIdx destination instruction })
    else (.error (script.outOfRange destination), script)

/-- A script with the instruction at `index` replaced; none if there is no such instruction. -/
def replace? (script : Script) (index : Nat) (instruction : Instruction) : Option Script :=
  if index < script.size then
    some { script with instructions := script.instructions.set index instruction }
  else none

/-- Leads the branch at `index` to another label. -/
def retarget (script : Script) (index target : Nat) : Except EditError Unit × Script :=
  if target < script.labels.size then
    match script.instructions[index]? with
    | none => (.error (script.outOfRange index), script)
    | some instruction =>
      match instruction.retarget? target with
      | none => (.error (.notABranch index), script)
      | some changed =>
        (.ok (), { script with instructions := script.instructions.set index changed })
  else (.error (.noSuchLabel target), script)

/-! ### Labels -/

/-- The position that a label is to have, if it is behind the end of the script. -/
def misplaced? (script : Script) (position : Option Nat) : Option Nat :=
  position.filter (script.size < ·)

/-- Adds a label, whose number is the reply. -/
def addLabel (script : Script) (name : String) (position : Option Nat) :
    Except EditError Nat × Script :=
  match script.misplaced? position with
  | some place => (.error (script.outOfRange place), script)
  | none =>
    let id := script.labels.size
    (.ok id, { script with labels := script.labels.push { id, name, position } })

/-- The number of a new label at the end of the script, and the script with it. -/
def mark (script : Script) (name : String) : Nat × Script :=
  let id := script.labels.size
  (id, { script with labels := script.labels.push { id, name, position := some script.size } })

/-- Changes a label that the script has. -/
def modifyLabel (script : Script) (id : Nat) (f : Label → Label) : Except EditError Unit × Script :=
  if id < script.labels.size then
    (.ok (), { script with labels := script.labels.modify id f })
  else (.error (.noSuchLabel id), script)

/-- Moves a label to another position, or takes it from its position. -/
def placeLabel (script : Script) (id : Nat) (position : Option Nat) :
    Except EditError Unit × Script :=
  match script.misplaced? position with
  | some place => (.error (script.outOfRange place), script)
  | none => script.modifyLabel id fun label => { label with position }

/-- Renames a label. -/
def renameLabel (script : Script) (id : Nat) (name : String) : Except EditError Unit × Script :=
  script.modifyLabel id fun label => { label with name }

end Script

end SceneScript
