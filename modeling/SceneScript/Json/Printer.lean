/-
**JSON on several lines.**

Each item of an array and each field of an object stands on a line of its own, two spaces further
in; an empty array or object stays on one line. In strings, quotes, backslashes and control
characters are escaped, and all other characters stand for themselves.
-/

import SceneScript.Json
import SceneScript.Text.Number

namespace SceneScript.Json

/-- A character inside a string. -/
def escape (c : Char) : String :=
  match c with
  | '"' => "\\\""
  | '\\' => "\\\\"
  | '\n' => "\\n"
  | '\r' => "\\r"
  | '\t' => "\\t"
  | _ =>
    if c = '\x08' then "\\b"
    else if c = '\x0c' then "\\f"
    else if c.toNat < 0x20 then "\\u" ++ Text.hexDigits 4 c.toNat
    else c.toString

/-- A string in quotes. -/
def quote (text : String) : String := "\"" ++ String.join (text.toList.map escape) ++ "\""

/-- The start of a line at a given depth. -/
def newline (depth : Nat) : String := "\n" ++ String.ofList (List.replicate (2 * depth) ' ')

/-- The parts of an array or object between its brackets. -/
def enclose (opening closing : String) (depth : Nat) (parts : List String) : String :=
  if parts.isEmpty then opening ++ closing
  else
    let lines := parts.map fun part => newline (depth + 1) ++ part
    opening ++ String.intercalate "," lines ++ newline depth ++ closing

mutual

/-- A value at a given depth. -/
def prettyAt (depth : Nat) : Json → String
  | null => "null"
  | bool value => if value then "true" else "false"
  | int value => toString value
  | decimal text => text
  | string value => quote value
  | array items => enclose "[" "]" depth (prettyItems (depth + 1) items)
  | object fields => enclose "\x7b" "\x7d" depth (prettyFields (depth + 1) fields)

/-- The items of an array. -/
def prettyItems (depth : Nat) : List Json → List String
  | [] => []
  | item :: rest => prettyAt depth item :: prettyItems depth rest

/-- The fields of an object. -/
def prettyFields (depth : Nat) : List (String × Json) → List String
  | [] => []
  | (name, value) :: rest =>
    (quote name ++ ": " ++ prettyAt depth value) :: prettyFields depth rest

end

/-- A value on several lines. -/
def pretty (value : Json) : String := prettyAt 0 value

end SceneScript.Json
