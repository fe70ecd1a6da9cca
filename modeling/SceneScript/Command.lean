/-
**The commands of the tool, as functions from files to what they print.**

* `ops` prints the catalogue;
* `dis` prints the listing of a script, as text or as JSON;
* `asm` turns a listing into bytes;
* `roundtrip` disassembles a script, assembles it again, and compares.

A command that fails prints `Error:` and what failed; a cause behind that follows in a paragraph of
its own.
-/

import SceneScript.Json.Printer
import SceneScript.Json.Reader
import SceneScript.Listing
import SceneScript.Listing.Reader
import SceneScript.Stored.Model

namespace SceneScript.Command

/-! ### Outcomes -/

/-- What a command did. -/
structure Outcome where
  exitCode : Nat := 0
  output : String := ""
  errors : String := ""
  /-- What was written to the output file, if anything was. -/
  written : Option (List UInt8) := none
deriving DecidableEq

/-- Why a command failed, and what was behind it. -/
structure Failure where
  text : String
  cause : Option String := none
deriving DecidableEq

/-- Why a file could not be read. -/
inductive FileError where
  | notFound
  /-- The file does not hold text. -/
  | notText
  | other (text : String)
deriving DecidableEq

def FileError.message : FileError → String
  | notFound => "No such file or directory (os error 2)"
  | notText => "stream did not contain valid UTF-8"
  | other text => text

/-- The contents of a file, or why there are none. -/
abbrev File := Except FileError (List UInt8)

namespace Failure

def ofFile (error : FileError) : Failure := { text := error.message }

/-- A malformed operand is named twice: in the sentence, and as the cause. -/
def ofDecode (error : DecodeError) : Failure where
  text := error.message
  cause := match error with
    | .malformedOperand _ cause => some cause.message
    | _ => none

def ofLine (failure : Listing.LineError) : Failure :=
  if failure.error.isCause then
    { text := s!"line {failure.line}", cause := some failure.error.message }
  else { text := failure.message }

/-- The paragraphs that report a failure. -/
def report (failure : Failure) : String :=
  match failure.cause with
  | none => s!"Error: {failure.text}\n"
  | some cause => s!"Error: {failure.text}\n\nCaused by:\n    {cause}\n"

/-- The outcome of a command that failed after printing some lines. -/
def outcome (failure : Failure) (before : String := "") : Outcome :=
  { exitCode := 1, errors := before ++ failure.report }

end Failure

/-- The text that a file holds. -/
def File.text (file : File) : Except Failure String :=
  match file with
  | .error error => .error (.ofFile error)
  | .ok bytes =>
    match String.fromUTF8? ⟨bytes.toArray⟩ with
    | some text => .ok text
    | none => .error (.ofFile .notText)

/-! ### ops -/

/-- A text with spaces behind it up to a given width. -/
def padded (width : Nat) (text : String) : String :=
  text ++ String.ofList (List.replicate (width - text.length) ' ')

/-- A row of the table: code, mnemonic, length and shapes. -/
def opcodeRow (opcode : Opcode) : String :=
  let code := Text.hexPadded 2 opcode.code.toNat
  let length := match opcode.fixedSize? with
    | some size => toString size
    | none => "var"
  let shapes := String.intercalate ", " (opcode.shapes.map Shape.name)
  s!"{code} {padded 10 opcode.mnemonic} {padded 6 length} {shapes}\n"

/-- The catalogue as a table. -/
def opcodeTable : String :=
  let columns := [padded 4 "id", padded 10 "mnemonic", padded 6 "len", "operands"]
  String.intercalate " " columns ++ "\n" ++ String.join (Opcode.catalogue.map opcodeRow)

def ops : Outcome := { output := opcodeTable }

/-! ### dis -/

/-- The part of a file that a command works on: `skip` bytes in, and `length` bytes long if one is
given. -/
structure Window where
  skip : Nat := 0
  length : Option Nat := none
deriving DecidableEq

/-- The bytes in a window, which has to lie in the file. -/
def Window.cut (window : Window) (file : List UInt8) : Except Failure (List UInt8) :=
  let rest := file.drop window.skip
  if file.length < window.skip then .error { text := "--skip exceeds file size" }
  else
    match window.length with
    | none => .ok rest
    | some length =>
      if rest.length < length then
        .error { text := "--len exceeds remaining file size after skip" }
      else .ok (rest.take length)

/-- The bytes of a file in a window. -/
def File.window (file : File) (window : Window) : Except Failure (List UInt8) :=
  match file with
  | .error error => .error (.ofFile error)
  | .ok bytes => window.cut bytes

/-- The bytes of a file in a window, which have to fit a script. -/
def File.blob (file : File) (window : Window) : Except Failure (List UInt8) := do
  let bytes ← file.window window
  if maxScriptLength < bytes.length then
    throw { text := s!"script blob is {bytes.length} bytes, more than a script can hold" }
  return bytes

/-- The forms in which a listing is printed. -/
inductive Format where
  | text
  | json
deriving DecidableEq

/-- A row of a listing as JSON. -/
def rowJson (row : Listing.Row) : Json :=
  .object [
    ("offset", Stored.write row.offset), ("labels", Stored.write row.labels),
    ("text", Stored.write row.text)]

/-- The listing of a script in a given form. -/
def render (format : Format) (script : Script) : Except Failure String :=
  match format with
  | .text => .ok (Listing.text script)
  | .json =>
    match Listing.rows script with
    | .ok rows => .ok ((Json.array (rows.map rowJson)).pretty ++ "\n")
    | .error index => .error { text := s!"instruction {index} has no fixed encoding" }

/-- The script that bytes hold. -/
def decode (bytes : List UInt8) : Except Failure Script :=
  (Script.disassemble 0 bytes).mapError Failure.ofDecode

/-- Prints the listing of a script, or writes it to the output file. -/
def dis (input : File) (window : Window) (format : Format) (toFile : Bool) : Outcome :=
  let result := do
    let script ← decode (← input.blob window)
    render format script
  match result with
  | .error failure => failure.outcome
  | .ok text =>
    if toFile then { written := some text.toUTF8.toList } else { output := text }

/-! ### asm -/

/-- The settings in a file, or the default ones if there is no file. -/
def loadConfig (file : Option File) : Except Failure AssemblyConfig := do
  match file with
  | none => return {}
  | some file =>
    match Json.parse? (← file.text) with
    | none => throw { text := "the settings are not JSON" }
    | some json =>
      match Stored.read json with
      | .ok config => return config
      | .error _ => throw { text := "the settings have a wrong form" }

/-- Settings given on the command line. -/
structure AsmOptions where
  maxPasses : Option Nat := none
  noFlip : Bool := false
deriving DecidableEq

/-- Settings with those of the command line in their place. -/
def AsmOptions.apply (options : AsmOptions) (config : AssemblyConfig) : AssemblyConfig where
  maxPasses := options.maxPasses.or config.maxPasses
  flipJumps := config.flipJumps && !options.noFlip

/-- The line that reports a fault. -/
def faultLine (diagnostic : Diagnostic) : String :=
  s!"line {diagnostic.index}: {diagnostic.message}\n"

/-- Assembles a listing and writes the bytes to the output file. `path` names the listing in
messages. -/
def asm (path : String) (input : File) (config : Option File) (options : AsmOptions) : Outcome :=
  let result := do
    let settings ← loadConfig config
    let text ← input.text
    let script ← (Listing.parse 0 text).mapError Failure.ofLine
    return (script, options.apply settings)
  match result with
  | .error failure => failure.outcome
  | .ok (script, settings) =>
    match script.assemble { script := script.id } settings with
    | .ok assembly =>
      { errors := s!"{assembly.bytes.length} bytes, {assembly.passes} pass(es)\n"
        written := some assembly.bytes }
    | .error diagnostics =>
      let failure : Failure := { text := s!"{diagnostics.length} error(s) in {path}" }
      failure.outcome (String.join (diagnostics.map faultLine))

/-! ### roundtrip -/

/-- What came of assembling a disassembled script. -/
structure Roundtrip where
  givenLength : Nat
  rebuiltLength : Nat
  instructions : Nat
  labels : Nat
  passes : Nat
  identical : Bool
  equivalent : Bool
deriving DecidableEq

namespace Roundtrip

/-- Disassembles bytes, assembles the script, and disassembles again. -/
def run (bytes : List UInt8) : Except Failure Roundtrip := do
  let script ← decode bytes
  match script.assemble { script := 0 } with
  | .error diagnostics =>
    let lines := String.intercalate "\n" (diagnostics.map Diagnostic.text)
    throw { text := s!"reassembly failed:\n{lines}" }
  | .ok assembly =>
    let rebuilt ← decode assembly.bytes
    return {
      givenLength := bytes.length
      rebuiltLength := assembly.bytes.length
      instructions := script.size
      labels := script.labels.size
      passes := assembly.passes
      identical := assembly.bytes == bytes
      equivalent := script.equivalent rebuilt }

def json (report : Roundtrip) : Json :=
  .object [
    ("original_len", Stored.write report.givenLength),
    ("rebuilt_len", Stored.write report.rebuiltLength),
    ("instructions", Stored.write report.instructions), ("labels", Stored.write report.labels),
    ("passes", Stored.write report.passes), ("identical", Stored.write report.identical),
    ("equivalent", Stored.write report.equivalent)]

def text (report : Roundtrip) : String :=
  s!"{report.givenLength} -> {report.rebuiltLength} bytes, {report.instructions} instructions, " ++
    s!"{report.labels} labels, {report.passes} pass(es)\n" ++
    s!"identical: {report.identical}, equivalent: {report.equivalent}"

end Roundtrip

/-- Reports what comes of assembling a disassembled script, and fails if it is another program. -/
def roundtrip (input : File) (window : Window) (asJson : Bool) : Outcome :=
  let result := do
    Roundtrip.run (← input.window window)
  match result with
  | .error failure => failure.outcome
  | .ok report =>
    let output := (if asJson then report.json.pretty else report.text) ++ "\n"
    if report.equivalent then { output }
    else
      let failure : Failure := { text := "rebuilt script does not match the original" }
      { failure.outcome with output }

end SceneScript.Command
