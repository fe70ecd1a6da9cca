/-
**Reading bytes from a moving position.**

A cursor holds the bytes still to read and how many were read before them. A reader moves it forward
and either returns a value or fails; the cursor stays where the failing read left it.

* A read of `n` bytes that finds fewer leaves the cursor in place.
* A block whose size byte is impossible, or whose payload is cut short, leaves it behind the size
  byte.
* `Reader.Advances`: a read that succeeds took a part of the bytes off the front and counted it. All
  readers here do so.
-/

import SceneScript.Operand

namespace SceneScript

/-- A position in a byte string. -/
structure Cursor where
  /-- How many bytes were read. -/
  pos : Nat := 0
  /-- The bytes still to read. -/
  rest : List UInt8
deriving DecidableEq

/-- A computation that reads bytes. -/
abbrev Reader (ε α : Type) := EStateM ε Cursor α

namespace Cursor

/-- A cursor at the start of a byte string. -/
def ofBytes (bytes : List UInt8) : Cursor := { rest := bytes }

/-- How many bytes are still to read. -/
def remaining (cursor : Cursor) : Nat := cursor.rest.length

def atEnd (cursor : Cursor) : Bool := cursor.rest.isEmpty

end Cursor

namespace Reader

/-- Reads the next `n` bytes. -/
def take (n : Nat) : Reader OperandError (List UInt8) := fun cursor =>
  let taken := cursor.rest.take n
  if taken.length = n then .ok taken { pos := cursor.pos + n, rest := cursor.rest.drop n }
  else .error (.truncated cursor.pos n cursor.remaining) cursor

/-- Reads a little-endian word. -/
def word (width : Nat) : Reader OperandError Nat := do
  return Word.ofBytes (← take width)

/-- Every read that succeeds takes bytes off the front of the rest and counts them. -/
def Advances {ε α : Type} (reader : Reader ε α) : Prop :=
  ∀ cursor value next, reader cursor = .ok value next →
    ∃ used, cursor.rest = used ++ next.rest ∧ next.pos = cursor.pos + used.length

theorem Advances.pure {ε α : Type} (value : α) : Advances (pure value : Reader ε α) := by
  intro cursor result next accepted
  cases accepted
  exact ⟨[], by simp⟩

theorem Advances.bind {ε α β : Type} {first : Reader ε α} {second : α → Reader ε β}
    (advancesFirst : Advances first) (advancesSecond : ∀ value, Advances (second value)) :
    Advances (first >>= second) := by
  intro cursor result next accepted
  simp only [Bind.bind, EStateM.bind] at accepted
  split at accepted
  · next value middle read =>
    obtain ⟨used, split, count⟩ := advancesFirst cursor value middle read
    obtain ⟨more, splitMore, countMore⟩ := advancesSecond value middle result next accepted
    exact ⟨used ++ more, by simp [split, splitMore], by simp [count, countMore, Nat.add_assoc]⟩
  · contradiction

theorem take_ok {n : Nat} {cursor next : Cursor} {taken : List UInt8}
    (accepted : take n cursor = .ok taken next) :
    taken.length = n ∧ cursor.rest = taken ++ next.rest ∧ next.pos = cursor.pos + n := by
  simp only [take] at accepted
  split at accepted
  · next enough =>
    cases accepted
    exact ⟨enough, (List.take_append_drop n cursor.rest).symm, rfl⟩
  · contradiction

/-- A word that was read took as many bytes as it is wide. -/
theorem rest_of_word {width n : Nat} {cursor next : Cursor}
    (accepted : word width cursor = .ok n next) :
    next.rest.length + width = cursor.rest.length := by
  simp only [word, Bind.bind, EStateM.bind] at accepted
  split at accepted
  · next taken after read =>
    cases accepted
    obtain ⟨count, split, _⟩ := take_ok read
    rw [split, List.length_append, count, Nat.add_comm]
  · contradiction

theorem advances_take (n : Nat) : Advances (take n) := by
  intro cursor taken next accepted
  obtain ⟨count, split, moved⟩ := take_ok accepted
  exact ⟨taken, split, by rw [moved, count]⟩

theorem advances_word (width : Nat) : Advances (word width) :=
  (advances_take width).bind fun _ => Advances.pure _

theorem Advances.adapt {ε ε' α : Type} {reader : Reader ε α} (advances : Advances reader)
    (f : ε → ε') : Advances (EStateM.adaptExcept f reader) := by
  intro cursor value next accepted
  apply advances cursor value next
  unfold EStateM.adaptExcept at accepted
  split at accepted
  · contradiction
  · next read =>
    cases accepted
    exact read

theorem Advances.mapM {ε α β : Type} {f : α → Reader ε β} (advances : ∀ item, Advances (f item))
    (items : List α) : Advances (items.mapM f) := by
  induction items with
  | nil => simpa using Advances.pure []
  | cons item rest ih =>
    rw [List.mapM_cons]
    exact (advances item).bind fun _ => ih.bind fun _ => Advances.pure _

end Reader

/-- Reads an operand of a given shape. -/
def Operand.decode (shape : Shape) : Reader OperandError Operand :=
  match shape.coding with
  | .unsigned width => do
    return scalar (Int64.ofNat (← Reader.word width))
  | .signed width => do
    return scalar (Int64.ofInt (Word.signed width (← Reader.word width)))
  | .branch width => do
    return offset (Int32.ofNat (← Reader.word width))
  | .block overhead limit => do
    let size ← Reader.word 1
    if size < overhead ∨ limit < size then throw (.badBlockSize size)
    return bytes (← Reader.take (size - overhead))

theorem Operand.advances_decode (shape : Shape) : Reader.Advances (decode shape) := by
  unfold decode
  split
  · exact (Reader.advances_word _).bind fun _ => Reader.Advances.pure _
  · exact (Reader.advances_word _).bind fun _ => Reader.Advances.pure _
  · exact (Reader.advances_word _).bind fun _ => Reader.Advances.pure _
  · refine (Reader.advances_word _).bind fun size => ?_
    split
    · intro cursor value next accepted
      contradiction
    · exact (Reader.advances_take _).bind fun _ => Reader.Advances.pure _

end SceneScript
