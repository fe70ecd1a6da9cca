/-
**The command line.**

The first argument names the command. Options may stand before and behind the other arguments; the
value of an option is the next argument, or follows the option behind an equals sign.
-/

import SceneScript.Command

namespace SceneScript.Command

/-- What is asked for on the command line. -/
inductive Request where
  | ops
  | dis (input : String) (window : Window) (format : Format) (output : Option String)
  | asm (input output : String) (config : Option String) (options : AsmOptions)
  | roundtrip (input : String) (window : Window) (asJson : Bool)
deriving DecidableEq

/-- The arguments of a command, sorted. -/
structure Arguments where
  /-- The options that have a value. -/
  values : List (String × String) := []
  /-- The options that have none. -/
  switches : List String := []
  plain : List String := []

namespace Arguments

/-- Sorts arguments. `valued` are the options that take a value, `bare` those that take none; none
if there is an unknown option or a value is missing. -/
def sort (valued bare : List String) (sorted : Arguments) : List String → Option Arguments
  | [] => some sorted
  | [argument] =>
    let name := String.ofList (argument.toList.takeWhile (· != '='))
    let value := String.ofList ((argument.toList.dropWhile (· != '=')).drop 1)
    if bare.contains argument then some { sorted with switches := argument :: sorted.switches }
    else if valued.contains name && name != argument then
      some { sorted with values := (name, value) :: sorted.values }
    else if argument.startsWith "-" then none
    else some { sorted with plain := sorted.plain ++ [argument] }
  | argument :: value :: rest =>
    if valued.contains argument then
      sort valued bare { sorted with values := (argument, value) :: sorted.values } rest
    else do
      let sorted ← sort valued bare sorted [argument]
      sort valued bare sorted (value :: rest)
termination_by arguments => arguments.length

/-- The value of an option that has two names. -/
def value? (arguments : Arguments) (long short : String) : Option String :=
  (arguments.values.find? fun (name, _) => name == long || name == short).map Prod.snd

/-- A number given by an option; fails if the value is no number. -/
def number? (arguments : Arguments) (name : String) : Option (Option Nat) :=
  match arguments.value? name name with
  | none => some none
  | some text => (Text.readDigits 10 text.toList).map some

/-- The window given by the options. -/
def window? (arguments : Arguments) : Option Window := do
  return { skip := (← arguments.number? "--skip").getD 0, length := ← arguments.number? "--len" }

/-- The form given by the options. -/
def format? (arguments : Arguments) : Option Format :=
  match arguments.value? "--format" "--format" with
  | none | some "text" => some .text
  | some "json" => some .json
  | some _ => none

end Arguments

/-- What a command line asks for; none if it cannot be understood. -/
def Request.parse? : List String → Option Request
  | ["ops"] => some .ops
  | "dis" :: rest => do
    let arguments ← Arguments.sort ["--skip", "--len", "--format", "--out"] [] {} rest
    let [input] := arguments.plain | none
    return .dis input (← arguments.window?) (← arguments.format?) (arguments.value? "--out" "--out")
  | "asm" :: rest => do
    let arguments ← Arguments.sort
      ["--input", "-i", "--output", "-o", "--config", "--max-passes"] ["--no-flip"] {} rest
    let [] := arguments.plain | none
    let options : AsmOptions :=
      { maxPasses := ← arguments.number? "--max-passes"
        noFlip := arguments.switches.contains "--no-flip" }
    return .asm (← arguments.value? "--input" "-i") (← arguments.value? "--output" "-o")
      (arguments.value? "--config" "--config") options
  | "roundtrip" :: rest => do
    let arguments ← Arguments.sort ["--skip", "--len"] ["--json"] {} rest
    let [input] := arguments.plain | none
    return .roundtrip input (← arguments.window?) (arguments.switches.contains "--json")
  | _ => none

/-- How to call the tool. -/
def usage : String :=
  "Usage: ops\n" ++
  "       dis BLOB [--skip N] [--len N] [--format text|json] [--out FILE]\n" ++
  "       asm --input FILE --output FILE [--config FILE] [--max-passes N] [--no-flip]\n" ++
  "       roundtrip BLOB [--skip N] [--len N] [--json]\n"

end SceneScript.Command
