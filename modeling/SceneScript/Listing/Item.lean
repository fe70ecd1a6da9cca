/-
**The lines of a listing.**

A line holds a label, `name:`, or an instruction, a mnemonic and operands with commas between them.
A line that starts with a number sign is a comment, and a semicolon ends the useful part of any
other line; blank lines hold nothing.
-/

import SceneScript.Text.Blank

namespace SceneScript.Listing

open Text

/-- What a line of a listing holds. -/
inductive Item where
  | label (name : String)
  | instruction (mnemonic : String) (operands : List String)
deriving DecidableEq

/-- A label whose name is empty or has blanks in it; the whole line is kept for the message. -/
structure BadLabel where
  line : String
deriving DecidableEq

def BadLabel.message (error : BadLabel) : String := s!"bad label: {error.line}"

/-- The useful part of a line: up to the first semicolon, without blanks at its ends. -/
def usefulPart (line : List Char) : List Char := trim (line.takeWhile (· != ';'))

/-- The operands of an instruction, from the text behind the mnemonic. -/
def operandTexts (text : List Char) : List String :=
  if text.isEmpty then []
  else (splitWhere (· == ',') text).map fun piece => String.ofList (trim piece)

/-- The item in the useful part of a line, which is not empty. -/
def itemOf (line useful : List Char) : Except BadLabel Item :=
  if useful.getLast? = some ':' then
    let name := trim useful.dropLast
    if name.isEmpty || name.any isBlank then .error ⟨String.ofList line⟩
    else .ok (.label (String.ofList name))
  else
    let mnemonic := useful.takeWhile fun c => !isBlank c
    let rest := useful.dropWhile fun c => !isBlank c
    .ok (.instruction (String.ofList mnemonic) (operandTexts (trim rest)))

/-- The item that a line holds, if it holds one. -/
def parseLine (line : List Char) : Except BadLabel (Option Item) :=
  if (trimStart line).head? = some '#' then .ok none
  else
    let useful := usefulPart line
    if useful.isEmpty then .ok none else (itemOf line useful).map some

end SceneScript.Listing
