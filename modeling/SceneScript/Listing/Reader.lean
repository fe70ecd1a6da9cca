/-
**From a listing to a script.**

The lines are read in order. A branch names its label, which may be defined later; other operands
are numbers, and payloads are bytes in brackets. Names that are defined twice or never are left for
the assembler to report.
-/

import SceneScript.Listing.Item
import SceneScript.Script

namespace SceneScript.Listing

open Text

/-- Why a listing cannot be read. -/
inductive ListingError where
  | badLabel (cause : BadLabel)
  | unknownMnemonic (mnemonic : String)
  | operandCount (mnemonic : String) (expected found : Nat)
  | badNumber (text : String)
  | notABlock (text : String)
  | badByte (text : String)
deriving DecidableEq

namespace ListingError

/-- The wording of an error. -/
def message : ListingError → String
  | badLabel cause => cause.message
  | unknownMnemonic mnemonic => s!"unknown mnemonic {mnemonic}"
  | operandCount mnemonic expected found =>
    s!"{mnemonic} takes {expected} operand(s), found {found}"
  | badNumber text => s!"bad number {text}"
  | notABlock text => s!"expected [..] byte block, got {text}"
  | badByte text => s!"bad byte in block: {text}"

/-- Whether the error stands behind its line as a cause, and not in one sentence with it. -/
def isCause : ListingError → Bool
  | badLabel _ | notABlock _ | badByte _ => true
  | unknownMnemonic _ | operandCount _ _ _ | badNumber _ => false

end ListingError

/-- An error and the number of its line, counted from one. -/
structure LineError where
  line : Nat
  error : ListingError
deriving DecidableEq

def LineError.message (failure : LineError) : String :=
  s!"line {failure.line}: {failure.error.message}"

/-! ### Operands -/

/-- The text between brackets. -/
def unbracket? : List Char → Option (List Char)
  | '[' :: rest => if rest.getLast? = some ']' then some rest.dropLast else none
  | _ => none

/-- A payload: bytes in brackets, with blanks between them. -/
def parseBlock (text : String) : Except ListingError (List UInt8) :=
  match unbracket? text.toList with
  | none => .error (.notABlock text)
  | some inner => (words inner).mapM fun word =>
    match readByte word with
    | some byte => .ok byte
    | none => .error (.badByte (String.ofList word))

/-- The place of the first label with a given name. -/
def labelPlace? (labels : Array Label) (name : String) : Option Nat :=
  labels.findIdx? (·.name == name)

/-- The place of the label with a given name, and the labels with it: a new one without a position
if there was none. -/
def reference (labels : Array Label) (name : String) : Nat × Array Label :=
  match labelPlace? labels name with
  | some id => (id, labels)
  | none => (labels.size, labels.push { id := labels.size, name, position := none })

/-- An operand of a given shape, and the labels with the one that it may name. -/
def parseOperand (labels : Array Label) (shape : Shape) (text : String) :
    Except ListingError (Operand × Array Label) :=
  if shape.isBranch then
    let (id, extended) := reference labels text
    .ok (.label id, extended)
  else if shape.isBlock then do
    return (.bytes (← parseBlock text), labels)
  else
    match parseInt64 text.toList with
    | some value => .ok (.scalar value, labels)
    | none => .error (.badNumber text)

/-- The operands of an instruction in order, and the labels with those that they name. -/
def parseOperands (labels : Array Label) :
    List (Shape × String) → Except ListingError (List Operand × Array Label)
  | [] => .ok ([], labels)
  | (shape, text) :: rest => do
    let (operand, extended) ← parseOperand labels shape text
    let (operands, final) ← parseOperands extended rest
    return (operand :: operands, final)

/-! ### Lines -/

/-- A script that is being read. -/
structure Draft where
  /-- The instructions read so far, latest first. -/
  code : List Instruction := []
  /-- How many instructions were read. -/
  size : Nat := 0
  /-- The labels defined or named so far; each carries its place. -/
  labels : Array Label := #[]

namespace Draft

/-- A draft with a label defined at its end: the first of that name if it has no position yet, else
a new one. -/
def define (draft : Draft) (name : String) : Draft :=
  let fresh := draft.labels.push { id := draft.labels.size, name, position := some draft.size }
  match labelPlace? draft.labels name with
  | none => { draft with labels := fresh }
  | some place =>
    match (draft.labels[place]?).bind Label.position with
    | some _ => { draft with labels := fresh }
    | none => { draft with labels := draft.labels.modify place fun label =>
        { label with position := some draft.size } }

/-- A draft with the item of one more line. -/
def add (draft : Draft) : Item → Except ListingError Draft
  | .label name => .ok (draft.define name)
  | .instruction mnemonic operands =>
    match Opcode.ofMnemonic? mnemonic with
    | none => .error (.unknownMnemonic mnemonic)
    | some opcode =>
      if operands.length = opcode.shapes.length then do
        let (values, labels) ← parseOperands draft.labels (opcode.shapes.zip operands)
        let instruction : Instruction := { opcode := opcode.code, operands := values }
        return { code := instruction :: draft.code, size := draft.size + 1, labels }
      else .error (.operandCount opcode.mnemonic opcode.shapes.length operands.length)

/-- A draft with one more line. -/
def addLine (draft : Draft) (line : List Char) : Except ListingError Draft :=
  match parseLine line with
  | .error cause => .error (.badLabel cause)
  | .ok none => .ok draft
  | .ok (some item) => draft.add item

/-- The script that was read. -/
def script (draft : Draft) (id : UInt8) : Script :=
  { id, instructions := draft.code.reverse, labels := draft.labels }

end Draft

/-- The script that a listing describes. -/
def parse (id : UInt8) (text : String) : Except LineError Script := do
  let draft ← (lines text.toList).zipIdx.foldlM
    (fun (draft : Draft) (line, index) =>
      (draft.addLine line).mapError fun error => { line := index + 1, error })
    {}
  return draft.script id

end SceneScript.Listing
