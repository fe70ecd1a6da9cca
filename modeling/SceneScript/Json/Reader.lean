/-
**Reading JSON.**

`Json.parse?` reads a text that holds one value and blanks around it. Blanks are spaces, tabs, line
feeds and carriage returns.

An escape for half of a surrogate pair stands for the replacement character. Only the names of the
outermost object, which say what its fields are for, have to be written out in full.

Values and strings are read by recursion on a bound, which is twice the length of the text and more,
falls by at most two for each character, and is therefore never reached.
-/

import SceneScript.Json
import SceneScript.Text.Number

namespace SceneScript.Json

/-- A text without the blanks it starts with. -/
def skipBlanks (text : List Char) : List Char :=
  text.dropWhile fun c => c == ' ' || c == '\t' || c == '\n' || c == '\r'

/-! ### Strings -/

/-- The number of an escape of four hexadecimal digits, and the text after it. -/
def readUnit (text : List Char) : Option (Nat × List Char) :=
  let digits := text.take 4
  if digits.length = 4 ∧ digits.all (fun c => (Text.digitValue? 16 c).isSome) then
    (Text.readDigits 16 digits).map fun unit => (unit, text.drop 4)
  else none

/-- The character of an escape with one letter. -/
def simpleEscape? : Char → Option Char
  | '"' => some '"'
  | '\\' => some '\\'
  | '/' => some '/'
  | 'b' => some '\x08'
  | 'f' => some '\x0c'
  | 'n' => some '\n'
  | 'r' => some '\r'
  | 't' => some '\t'
  | _ => none

/-- The unit of an escape at the start of the text, if it is the second half of a surrogate pair. -/
def lowSurrogate? : List Char → Option (Nat × List Char)
  | '\\' :: 'u' :: text =>
    (readUnit text).filter fun (unit, _) => 0xDC00 ≤ unit && unit ≤ 0xDFFF
  | _ => none

/-- The character of an escape whose first unit was read, the text after the escape, and whether the
character was written out in full. -/
def escapedChar (unit : Nat) (text : List Char) : Char × List Char × Bool :=
  if 0xD800 ≤ unit ∧ unit ≤ 0xDBFF then
    match lowSurrogate? text with
    | some (low, rest) =>
      (Char.ofNat (0x10000 + (unit - 0xD800) * 0x400 + (low - 0xDC00)), rest, true)
    | none => (Char.ofNat 0xFFFD, text, false)
  else if 0xDC00 ≤ unit ∧ unit ≤ 0xDFFF then (Char.ofNat 0xFFFD, text, false)
  else (Char.ofNat unit, text, true)

/-- Reads a string behind its opening quote: the characters, whether all were written out in full,
and the text after the closing quote. `done` are the characters read before, latest first. -/
def readString : (bound : Nat) → (done : List Char) → (full : Bool) → List Char →
    Option (String × Bool × List Char)
  | 0, _, _, _ => none
  | _ + 1, _, _, [] => none
  | _ + 1, done, full, '"' :: rest => some (String.ofList done.reverse, full, rest)
  | bound + 1, done, full, '\\' :: 'u' :: rest =>
    match readUnit rest with
    | none => none
    | some (unit, text) =>
      let (c, after, complete) := escapedChar unit text
      readString bound (c :: done) (full && complete) after
  | bound + 1, done, full, '\\' :: letter :: rest =>
    match simpleEscape? letter with
    | none => none
    | some c => readString bound (c :: done) full rest
  | bound + 1, done, full, c :: rest =>
    if c.toNat < 0x20 ∨ c = '\\' then none else readString bound (c :: done) full rest

/-! ### Numbers -/

/-- The digits at the start of a text, and the text after them. -/
def spanDigits (text : List Char) : List Char × List Char :=
  (text.takeWhile Char.isDigit, text.dropWhile Char.isDigit)

/-- The whole part of a number: no zero stands before other digits. -/
def readWhole (text : List Char) : Option (List Char × List Char) :=
  match spanDigits text with
  | ([], _) => none
  | ('0' :: _ :: _, _) => none
  | (digits, rest) => some (digits, rest)

/-- The part of a number after its point, empty if there is none. -/
def readFraction : List Char → Option (List Char × List Char)
  | '.' :: text =>
    match spanDigits text with
    | ([], _) => none
    | (digits, rest) => some ('.' :: digits, rest)
  | text => some ([], text)

/-- The exponent of a number, empty if there is none. -/
def readExponent (text : List Char) : Option (List Char × List Char) :=
  match text with
  | mark :: rest =>
    if mark = 'e' ∨ mark = 'E' then
      let (sign, rest) := match rest with
        | '+' :: rest => (['+'], rest)
        | '-' :: rest => (['-'], rest)
        | rest => ([], rest)
      match spanDigits rest with
      | ([], _) => none
      | (digits, rest) => some (mark :: sign ++ digits, rest)
    else some ([], text)
  | [] => some ([], [])

/-- Reads a number. Only a whole number of 64 bits, other than a negative zero, is an integer. -/
def readNumber (text : List Char) : Option (Json × List Char) := do
  let (sign, unsigned) := match text with
    | '-' :: rest => (['-'], rest)
    | rest => ([], rest)
  let (whole, rest) ← readWhole unsigned
  let (fraction, rest) ← readFraction rest
  let (exponent, rest) ← readExponent rest
  let magnitude ← Text.readDigits 10 whole
  let value : Int := if sign.isEmpty then magnitude else -magnitude
  let isWhole := fraction.isEmpty && exponent.isEmpty
  let negativeZero := !sign.isEmpty && magnitude == 0
  let fits := -0x8000000000000000 ≤ value && value < 0x10000000000000000
  if isWhole && !negativeZero && fits then
    return (int value, rest)
  return (decimal (String.ofList (sign ++ whole ++ fraction ++ exponent)), rest)

/-! ### Values -/

/-- The text after a given word, if it starts with it. -/
def dropWord? (word : String) (text : List Char) : Option (List Char) :=
  if word.toList.isPrefixOf text then some (text.drop word.length) else none

mutual

/-- Reads a value at the start of a text. If the value is `outermost` and an object, its names have
to be written out in full. -/
def readValue : (bound : Nat) → (outermost : Bool) → List Char → Option (Json × List Char)
  | 0, _, _ => none
  | bound + 1, outermost, text =>
    match skipBlanks text with
    | [] => none
    | '"' :: rest =>
      (readString bound [] true rest).map fun (s, _, rest) => (string s, rest)
    | '[' :: rest =>
      match skipBlanks rest with
      | ']' :: rest => some (array [], rest)
      | rest => readItems bound [] rest
    | '\x7b' :: rest =>
      match skipBlanks rest with
      | '\x7d' :: rest => some (object [], rest)
      | rest => readFields bound outermost [] rest
    | 't' :: rest => (dropWord? "rue" rest).map fun rest => (bool true, rest)
    | 'f' :: rest => (dropWord? "alse" rest).map fun rest => (bool false, rest)
    | 'n' :: rest => (dropWord? "ull" rest).map fun rest => (null, rest)
    | text => readNumber text

/-- Reads the items of an array that are left, up to the closing bracket. -/
def readItems : (bound : Nat) → (done : List Json) → List Char → Option (Json × List Char)
  | 0, _, _ => none
  | bound + 1, done, text =>
    match readValue bound false text with
    | none => none
    | some (item, rest) =>
      match skipBlanks rest with
      | ',' :: rest => readItems bound (item :: done) rest
      | ']' :: rest => some (array (item :: done).reverse, rest)
      | _ => none

/-- Reads the fields of an object that are left, up to the closing brace. -/
def readFields : (bound : Nat) → (outermost : Bool) → (done : List (String × Json)) →
    List Char → Option (Json × List Char)
  | 0, _, _, _ => none
  | bound + 1, outermost, done, text =>
    match skipBlanks text with
    | '"' :: rest =>
      match readString bound [] true rest with
      | none => none
      | some (name, full, rest) =>
        if outermost && !full then none
        else
          match skipBlanks rest with
          | ':' :: rest =>
            match readValue bound false rest with
            | none => none
            | some (value, rest) =>
              match skipBlanks rest with
              | ',' :: rest => readFields bound outermost ((name, value) :: done) rest
              | '\x7d' :: rest => some (object ((name, value) :: done).reverse, rest)
              | _ => none
          | _ => none
    | _ => none

end

/-- The value that a text holds. -/
def parse? (text : String) : Option Json :=
  let chars := text.toList
  match readValue (2 * chars.length + 2) true chars with
  | some (value, rest) => if (skipBlanks rest).isEmpty then some value else none
  | none => none

end SceneScript.Json
