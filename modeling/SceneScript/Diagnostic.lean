/-
**What can be wrong with a script that is assembled.**

A fault is found at an instruction (`Finding`); a diagnostic says in addition which script of which
group and scene was assembled (`Origin`).
-/

import SceneScript.Text.Number

namespace SceneScript

/-- The longest script in bytes: its places have to fit two bytes. -/
def maxScriptLength : Nat := 65535

/-- Why a branch cannot reach its label. -/
inductive Unreachable where
  /-- The label is too far away for the short form, and there is no long one. -/
  | needsLongForm
  /-- The label lies before the branch, which goes forward only. -/
  | backwardReference
  /-- The label lies behind the branch, which goes backward only. -/
  | forwardReference
deriving DecidableEq

namespace Unreachable

def all : List Unreachable := [needsLongForm, backwardReference, forwardReference]

/-- The name of a reason in the stored form. -/
def name : Unreachable → String
  | needsLongForm => "RequiresLongVariantUnavailable"
  | backwardReference => "BackwardReferenceUnsupported"
  | forwardReference => "ForwardReferenceUnsupported"

/-- The reason with a given name. -/
def ofName? (name : String) : Option Unreachable := all.find? (·.name == name)

def message : Unreachable → String
  | needsLongForm => "it is more than 255 bytes away and this opcode has no long form"
  | backwardReference => "this opcode can only jump forward"
  | forwardReference => "this opcode can only jump backward"

end Unreachable

/-- What is wrong with a script. -/
inductive Fault where
  | duplicateLabel (name : String)
  | undefinedLabel (name : String)
  | unreachableLabel (name : String) (reason : Unreachable)
  | scriptTooLarge (actual : Nat)
  /-- The widths of the branches were still changing after the last pass that was allowed. -/
  | didNotSettle (passes : Nat)
  | invalidOperand (operand : Nat) (reason : String)
  | unknownOpcode (code : UInt8)
deriving DecidableEq

namespace Fault

/-- Whether the fault ends all further checks. -/
def isFatal : Fault → Bool
  | didNotSettle _ => true
  | _ => false

/-- The wording of a fault. -/
def message : Fault → String
  | duplicateLabel name => s!"label `{name}` is defined more than once"
  | undefinedLabel name => s!"label `{name}` is not defined"
  | unreachableLabel name reason => s!"label `{name}` is unreachable: {reason.message}"
  | scriptTooLarge actual =>
    s!"script is {actual} bytes long and exceeds {maxScriptLength} bytes"
  | didNotSettle passes => s!"branch layout did not settle after {passes} passes"
  | invalidOperand operand reason => s!"operand {operand}: {reason}"
  | unknownOpcode code => s!"unknown opcode {Text.hexPadded 2 code.toNat}"

end Fault

/-- A fault and the index of the instruction that it is found at. -/
structure Finding where
  index : Nat
  fault : Fault
deriving DecidableEq

/-- Which script is assembled. -/
structure Origin where
  scene : UInt16 := 0
  sceneName : String := ""
  group : UInt8 := 0
  groupName : String := ""
  script : UInt8
deriving DecidableEq

/-- A fault in a script of a scene. -/
structure Diagnostic extends Finding where
  origin : Origin
deriving DecidableEq

namespace Diagnostic

def message (diagnostic : Diagnostic) : String := diagnostic.fault.message

/-- The whole wording: where the fault is, then what it is. -/
def text (diagnostic : Diagnostic) : String :=
  let origin := diagnostic.origin
  s!"{origin.sceneName} ({origin.scene}), group {origin.groupName} ({origin.group}), " ++
    s!"script {origin.script}, line {diagnostic.index}: {diagnostic.message}"

end Diagnostic

end SceneScript
