/-
**The stored form of values.**

A type with a stored form can be written as JSON and read back. Reading checks everything: kinds,
ranges, required fields, and the rules of groups and scenes. Only a broken rule of a group or scene
is reported with its cause.

* A record is an object. Fields may stand in any order, unknown ones are ignored, and none may stand
  twice. It may also be an array with the fields in their own order.
* Of two fields with errors, the one that stands first is reported; a missing field counts as
  standing behind all others.
* A choice is an object with one field, named for the case; a case without data is its name alone.
-/

import SceneScript.Group
import SceneScript.Json

namespace SceneScript

/-- Why a value cannot be read. -/
inductive ReadError where
  | malformed
  /-- The value is well formed but breaks a rule of groups or scenes. -/
  | group (cause : GroupError)
deriving DecidableEq

/-- Values with a stored form. -/
class Stored (α : Type) where
  write : α → Json
  read : Json → Except ReadError α

namespace Stored

/-! ### Numbers, texts and lists -/

/-- Reads an integer in a given range, both ends included. -/
def readInt (lowest highest : Int) : Json → Except ReadError Int
  | .int value => if lowest ≤ value ∧ value ≤ highest then .ok value else .error .malformed
  | _ => .error .malformed

instance : Stored UInt8 where
  write value := .int value.toNat
  read json := return (← readInt 0 255 json).toNat.toUInt8

instance : Stored UInt16 where
  write value := .int value.toNat
  read json := return (← readInt 0 65535 json).toNat.toUInt16

/-- Counts, indices and numbers of labels have 64 bits. -/
instance : Stored Nat where
  write value := .int value
  read json := return (← readInt 0 0xFFFFFFFFFFFFFFFF json).toNat

instance : Stored Int64 where
  write value := .int value.toInt
  read json := return Int64.ofInt (← readInt (-0x8000000000000000) 0x7FFFFFFFFFFFFFFF json)

instance : Stored Int32 where
  write value := .int value.toInt
  read json := return Int32.ofInt (← readInt (-0x80000000) 0x7FFFFFFF json)

instance : Stored Bool where
  write := .bool
  read
    | .bool value => .ok value
    | _ => .error .malformed

instance : Stored String where
  write := .string
  read
    | .string value => .ok value
    | _ => .error .malformed

instance {α : Type} [Stored α] : Stored (Option α) where
  write
    | none => .null
    | some value => write value
  read
    | .null => .ok none
    | json => return some (← read json)

instance {α : Type} [Stored α] : Stored (List α) where
  write items := .array (items.map write)
  read
    | .array items => items.mapM read
    | _ => .error .malformed

/-- Reads a case without data by its name. -/
def readName {α : Type} (ofName? : String → Option α) : Json → Except ReadError α
  | .string name | .object [(name, .null)] =>
    match ofName? name with
    | some value => .ok value
    | none => .error .malformed
  | _ => .error .malformed

/-! ### Records -/

/-- The fields of a record that is read. -/
structure Fields where
  /-- The fields in the order in which they stand. -/
  members : List (String × Json)
  /-- Whether the fields were given by name; otherwise they were given in their own order. -/
  named : Bool := true
  /-- Whether there were more items than fields. -/
  surplus : Bool := false

/-- What was read from a field: its value, or an error and the place of the field. -/
def FieldRead (α : Type) : Type := Except (Nat × ReadError) α

instance : Applicative FieldRead where
  pure value := .ok value
  seq f x :=
    match f, x () with
    | .ok g, .ok value => .ok (g value)
    | .error cause, .ok _ => .error cause
    | .ok _, .error cause => .error cause
    | .error first, .error second => .error (if second.1 < first.1 then second else first)

namespace Fields

/-- Reads the field with a given name, if there is one. -/
def lookup {α : Type} [Stored α] (fields : Fields) (name : String) : FieldRead (Option α) :=
  match fields.members.zipIdx.filter fun ((key, _), _) => key == name with
  | [] => .ok none
  | ((_, json), place) :: others =>
    match Stored.read json, others with
    | .error cause, _ => .error (place, cause)
    | .ok value, [] => .ok (some value)
    | .ok _, (_, repeated) :: _ => .error (repeated, .malformed)

/-- The error of a missing field. -/
def missing {α : Type} (fields : Fields) : FieldRead α :=
  .error (fields.members.length, .malformed)

/-- Reads a field, and takes what `otherwise` says if it is missing. -/
def orElse {α : Type} [Stored α] (fields : Fields) (name : String) (otherwise : FieldRead α) :
    FieldRead α :=
  match fields.lookup name with
  | .ok (some value) => .ok value
  | .ok none => otherwise
  | .error cause => .error cause

/-- Reads a field that has to be there. -/
def required {α : Type} [Stored α] (fields : Fields) (name : String) : FieldRead α :=
  fields.orElse name fields.missing

/-- Reads a field that need not be there if fields are given by name. -/
def optional {α : Type} [Stored α] (fields : Fields) (name : String) : FieldRead (Option α) :=
  fields.orElse name (if fields.named then .ok none else fields.missing)

/-- Reads a field that has a default. -/
def defaulted {α : Type} [Stored α] (fields : Fields) (name : String) (default : α) : FieldRead α :=
  fields.orElse name (.ok default)

/-- What was read from all fields of a record. -/
def finish {α : Type} (fields : Fields) (result : FieldRead α) : Except ReadError α :=
  match result with
  | .error (_, cause) => .error cause
  | .ok value => if fields.surplus then .error .malformed else .ok value

end Fields

/-- Reads a record given as an object. -/
def readObject {α : Type} (fields : Fields → FieldRead α) : Json → Except ReadError α
  | .object members => Fields.finish { members } (fields { members })
  | _ => .error .malformed

/-- Reads a record given as an object, or as an array of its fields in the order of `names`. -/
def readRecord {α : Type} (names : List String) (fields : Fields → FieldRead α) :
    Json → Except ReadError α
  | .array items =>
    let given : Fields :=
      { members := names.zip items, named := false, surplus := names.length < items.length }
    given.finish (fields given)
  | json => readObject fields json

end Stored

end SceneScript
