/-
**Numbers as text.**

* `hex` and `hexPadded` write a number in lower-case hexadecimal behind `0x`, `hexByte` a byte in
  two digits; `twosComplement` is the number that stands for a signed value of a given width.
* `readSigned` reads digits of a base behind an optional sign, `readByte` a hexadecimal byte.
* `parseInt64` reads the numbers of a listing: decimal or, after `0x`, hexadecimal, with a sign
  before it. The digits may carry a second sign of their own.
-/

import SceneScript.Text.Blank

namespace SceneScript.Text

/-! ### Writing -/

/-- The hexadecimal digits of a number, with zeros in front up to `width` digits. -/
def hexDigits (width n : Nat) : String :=
  let digits := Nat.toDigits 16 n
  String.ofList (List.replicate (width - digits.length) '0' ++ digits)

/-- A number in hexadecimal behind `0x`, with at least `width` digits. -/
def hexPadded (width n : Nat) : String := "0x" ++ hexDigits width n

/-- A number in hexadecimal behind `0x`. -/
def hex (n : Nat) : String := hexPadded 1 n

/-- A byte as two hexadecimal digits. -/
def hexByte (b : UInt8) : String := hexDigits 2 b.toNat

/-- The unsigned number with the same `bits` bits as a signed one. -/
def twosComplement (bits : Nat) (value : Int) : Nat := (value % (Nat.pow 2 bits : Nat)).toNat

/-! ### Reading -/

/-- The value of a digit of base `base`, in either case. -/
def digitValue? (base : Nat) (c : Char) : Option Nat :=
  let value? :=
    if '0' ≤ c ∧ c ≤ '9' then some (c.toNat - '0'.toNat)
    else if 'a' ≤ c ∧ c ≤ 'z' then some (c.toNat - 'a'.toNat + 10)
    else if 'A' ≤ c ∧ c ≤ 'Z' then some (c.toNat - 'A'.toNat + 10)
    else none
  value?.filter (· < base)

/-- What one more digit makes of the number read so far. -/
def readDigit (base value : Nat) (c : Char) : Option Nat :=
  (digitValue? base c).map (value * base + ·)

/-- The number written by one or more digits of base `base`. -/
def readDigits (base : Nat) (text : List Char) : Option Nat :=
  if text.isEmpty then none else text.foldlM (readDigit base) 0

/-- The number written by digits of base `base` behind an optional sign. -/
def readSigned (base : Nat) : List Char → Option Int
  | '-' :: digits => (readDigits base digits).map fun n => -(n : Int)
  | '+' :: digits => (readDigits base digits).map fun n => (n : Int)
  | digits => (readDigits base digits).map fun n => (n : Int)

/-- The byte written by hexadecimal digits, which may follow a plus sign. -/
def readByte (text : List Char) : Option UInt8 :=
  let digits := match text with
    | '+' :: digits => digits
    | digits => digits
  (readDigits 16 digits).bind fun n => if n < 256 then some n.toUInt8 else none

/-- The signed 64-bit value of a number that fits one. -/
def int64? (value : Int) : Option Int64 :=
  if -0x8000000000000000 ≤ value ∧ value < 0x8000000000000000 then some (Int64.ofInt value)
  else none

/-- A number without its minus sign: hexadecimal after `0x` or `0X`, else decimal. -/
def parseMagnitude (text : List Char) : Option Int64 :=
  match text with
  | '0' :: 'x' :: digits | '0' :: 'X' :: digits => (readSigned 16 digits).bind int64?
  | digits => (readSigned 10 digits).bind int64?

/-- The number that a listing writes: blanks around it are dropped, and a minus sign in front
negates what follows. -/
def parseInt64 (text : List Char) : Option Int64 :=
  match trim text with
  | '-' :: magnitude => (parseMagnitude magnitude).map fun value => -value
  | magnitude => parseMagnitude magnitude

end SceneScript.Text
