/-
**JSON values.**

The fields of an object keep the order in which they stand, and a name may stand in it twice.
Numbers are integers between -2^63 and 2^64; any other number is kept as it was written, since no
stored value has one.
-/

namespace SceneScript

/-- A JSON value. -/
inductive Json where
  | null
  | bool (value : Bool)
  | int (value : Int)
  /-- A number that is not an integer of 64 bits. -/
  | decimal (text : String)
  | string (value : String)
  | array (items : List Json)
  | object (fields : List (String × Json))

end SceneScript
