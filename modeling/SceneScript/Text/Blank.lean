/-
**Blank characters, and the cuts that listings make at them.**

A character is blank when it has the Unicode property White_Space. Texts are taken apart as lists of
characters:

* `trimStart`, `trimEnd`, `trim` drop the blanks at the ends;
* `splitWhere` cuts at every character of a class, and keeps the empty pieces;
* `words` are the pieces between blanks, and `lines` the pieces between line ends.
-/

namespace SceneScript.Text

/-- The ranges of code points with the property White_Space, both ends included. -/
def blankRanges : List (Nat × Nat) :=
  [(0x09, 0x0D), (0x20, 0x20), (0x85, 0x85), (0xA0, 0xA0), (0x1680, 0x1680), (0x2000, 0x200A),
    (0x2028, 0x2029), (0x202F, 0x202F), (0x205F, 0x205F), (0x3000, 0x3000)]

/-- Whether a character has the property White_Space. -/
def isBlank (c : Char) : Bool :=
  blankRanges.any fun range => range.1 ≤ c.toNat && c.toNat ≤ range.2

/-- A text without the blanks it starts with. -/
def trimStart (text : List Char) : List Char := text.dropWhile isBlank

/-- A text without the blanks it ends with. -/
def trimEnd (text : List Char) : List Char := (text.reverse.dropWhile isBlank).reverse

/-- A text without the blanks at either end. -/
def trim (text : List Char) : List Char := trimEnd (trimStart text)

/-- `splitWhere` with the piece being read and the finished pieces, both latest first. -/
def splitWhere.go (cut : Char → Bool) (piece : List Char) (done : List (List Char)) :
    List Char → List (List Char)
  | [] => (piece.reverse :: done).reverse
  | c :: rest =>
    if cut c then splitWhere.go cut [] (piece.reverse :: done) rest
    else splitWhere.go cut (c :: piece) done rest

/-- The pieces between the characters of a class; a text with `n` of them has `n + 1` pieces. -/
def splitWhere (cut : Char → Bool) (text : List Char) : List (List Char) :=
  splitWhere.go cut [] [] text

/-- The pieces of a text between blanks, none of them empty. -/
def words (text : List Char) : List (List Char) :=
  (splitWhere isBlank text).filter fun piece => !piece.isEmpty

/-- A line without the carriage return that belongs to its line end. -/
def dropReturn (line : List Char) : List Char :=
  if line.getLast? = some '\r' then line.dropLast else line

/-- The lines of a text. A line feed ends a line, together with a carriage return right before it;
what follows the last line feed is a line if it is not empty. -/
def lines (text : List Char) : List (List Char) :=
  let pieces := splitWhere (· == '\n') text
  let last := pieces.getLast?.getD []
  pieces.dropLast.map dropReturn ++ (if last.isEmpty then [] else [last])

end SceneScript.Text
