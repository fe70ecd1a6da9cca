/-
**The tool: reads the files that a command names, runs it, and prints what it says.**
-/

import SceneScript.Command.Arguments

open SceneScript.Command

namespace SceneScript.Command

/-- Reads a file. -/
def readFile (path : String) : IO File := do
  try
    return .ok (← IO.FS.readBinFile path).toList
  catch error =>
    match error with
    | .noFileOrDirectory .. => return .error .notFound
    | _ => return .error (.other (toString error))

/-- Prints an outcome, writes the output file, and gives the exit code. -/
def finish (outcome : Outcome) (path : Option String) : IO UInt32 := do
  if let (some bytes, some path) := (outcome.written, path) then
    IO.FS.writeBinFile path ⟨bytes.toArray⟩
  IO.print outcome.output
  IO.eprint outcome.errors
  return outcome.exitCode.toUInt32

end SceneScript.Command

def main (arguments : List String) : IO UInt32 := do
  match Request.parse? arguments with
  | none =>
    IO.eprint usage
    return 2
  | some .ops => finish ops none
  | some (.dis input window format output) =>
    finish (dis (← readFile input) window format output.isSome) output
  | some (.asm input output config options) =>
    let settings ← config.mapM readFile
    finish (asm input (← readFile input) settings options) (some output)
  | some (.roundtrip input window asJson) =>
    finish (roundtrip (← readFile input) window asJson) none
