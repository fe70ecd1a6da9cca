/-
**Reading is the inverse of writing.**

A reader parses a format if it accepts exactly the written forms of its values, whatever follows
them, and stops right behind (`Reader.Parses`). The property is closed under the ways in which
readers are put together, so it climbs from bytes to instructions:

* `parses_word`: a word is its bytes, low byte first;
* `Operand.parses_decode`: the operands read in a shape are those that can be written in it, each
  from its own bytes;
* `Instruction.parses_decode`: the same for instructions.

`Written` relates a list of operands to its bytes, and `Instruction.encode_eq_ok_iff` says that an
instruction is its code and then its operands in the shapes of its row. `Instruction.decode_encode`
joins the two directions with the announced length (`Instruction.size?_of_encode`).
-/

import SceneScript.Instruction
import Mathlib.Algebra.BigOperators.Group.List.Lemmas
import Mathlib.Algebra.Order.Group.Nat
import Mathlib.Algebra.Ring.Nat

namespace SceneScript

/-! ### Formats -/

namespace Reader

/-- A reader accepts exactly the written forms of its values, and stops right behind them. -/
def Parses {ε α : Type} (reader : Reader ε α) (written : α → List UInt8 → Prop) : Prop :=
  ∀ cursor value next, reader cursor = .ok value next ↔
    ∃ bytes, written value bytes ∧ cursor.rest = bytes ++ next.rest ∧
      next.pos = cursor.pos + bytes.length

section Combine

variable {ε α β : Type}

theorem Parses.congr {reader : Reader ε α} {written written' : α → List UInt8 → Prop}
    (parses : reader.Parses written)
    (same : ∀ value bytes, written value bytes ↔ written' value bytes) :
    reader.Parses written' := by
  intro cursor value next
  rw [parses cursor value next]
  simp only [same]

theorem parses_pure (value : α) :
    Parses (pure value : Reader ε α) fun result bytes => result = value ∧ bytes = [] := by
  intro cursor result next
  constructor
  · intro accepted
    cases accepted
    exact ⟨[], ⟨rfl, rfl⟩, rfl, rfl⟩
  · rintro ⟨bytes, ⟨rfl, rfl⟩, rest, pos⟩
    cases cursor
    cases next
    simp only [List.nil_append, List.length_nil, Nat.add_zero] at rest pos
    rw [rest, pos]
    rfl

theorem Parses.bind {first : Reader ε α} {second : α → Reader ε β}
    {written : α → List UInt8 → Prop} {written' : α → β → List UInt8 → Prop}
    (parsesFirst : first.Parses written)
    (parsesSecond : ∀ value, (second value).Parses (written' value)) :
    Parses (first >>= second) fun result bytes =>
      ∃ value front back, written value front ∧ written' value result back ∧
        bytes = front ++ back := by
  intro cursor result next
  have unfolded : (first >>= second) cursor = .ok result next ↔
      ∃ value middle, first cursor = .ok value middle ∧ second value middle = .ok result next := by
    simp only [Bind.bind, EStateM.bind]
    cases first cursor with
    | ok value middle =>
      constructor
      · exact fun read => ⟨value, middle, rfl, read⟩
      · rintro ⟨_, _, same, read⟩
        cases same
        exact read
    | error cause stopped => simp
  rw [unfolded]
  constructor
  · rintro ⟨value, middle, readFirst, readSecond⟩
    obtain ⟨front, isFront, restFront, posFront⟩ := (parsesFirst _ _ _).mp readFirst
    obtain ⟨back, isBack, restBack, posBack⟩ := (parsesSecond _ _ _ _).mp readSecond
    refine ⟨front ++ back, ⟨value, front, back, isFront, isBack, rfl⟩, ?_, ?_⟩
    · rw [restFront, restBack, List.append_assoc]
    · rw [posBack, posFront, List.length_append, Nat.add_assoc]
  · rintro ⟨bytes, ⟨value, front, back, isFront, isBack, rfl⟩, rest, pos⟩
    refine ⟨value, { pos := cursor.pos + front.length, rest := back ++ next.rest }, ?_, ?_⟩
    · exact (parsesFirst _ _ _).mpr ⟨front, isFront, by rw [rest, List.append_assoc], rfl⟩
    · refine (parsesSecond _ _ _ _).mpr ⟨back, isBack, rfl, ?_⟩
      rw [pos, List.length_append, Nat.add_assoc]

theorem Parses.map {reader : Reader ε α} {written : α → List UInt8 → Prop}
    (parses : reader.Parses written) (f : α → β) :
    Parses (do return f (← reader)) fun result bytes =>
      ∃ value, written value bytes ∧ result = f value := by
  refine (parses.bind fun value => parses_pure (f value)).congr fun result bytes => ?_
  constructor
  · rintro ⟨value, front, back, isFront, ⟨rfl, rfl⟩, rfl⟩
    exact ⟨value, by rwa [List.append_nil], rfl⟩
  · rintro ⟨value, isWritten, rfl⟩
    exact ⟨value, bytes, [], isWritten, ⟨rfl, rfl⟩, (List.append_nil bytes).symm⟩

/-- A check in front of a reader adds its negation to the format. -/
theorem parses_unless (reader : Unit → Reader ε α) {written : α → List UInt8 → Prop}
    (parses : (reader ()).Parses written) (refused : Prop) [Decidable refused] (error : ε) :
    Parses (if refused then throw error >>= reader else reader ()) fun value bytes =>
      ¬refused ∧ written value bytes := by
  by_cases holds : refused
  · intro cursor value next
    simp only [holds, not_true_eq_false, false_and, exists_const, iff_false]
    intro accepted
    cases accepted
  · simp only [holds, not_false_eq_true, true_and]
    exact parses

theorem Parses.adapt {ε' : Type} {reader : Reader ε α} {written : α → List UInt8 → Prop}
    (parses : reader.Parses written) (f : ε → ε') :
    Parses (EStateM.adaptExcept f reader) written := by
  intro cursor value next
  rw [← parses cursor value next]
  unfold EStateM.adaptExcept
  cases reader cursor <;> simp

end Combine

theorem parses_take (n : Nat) :
    (take n).Parses fun value bytes => value = bytes ∧ bytes.length = n := by
  intro cursor taken next
  constructor
  · intro accepted
    obtain ⟨count, split, moved⟩ := take_ok accepted
    exact ⟨taken, ⟨rfl, count⟩, split, by rw [moved, count]⟩
  · rintro ⟨bytes, ⟨rfl, rfl⟩, rest, pos⟩
    cases next
    simp only at rest pos
    simp [take, rest, pos]

/-- A word is its bytes, low byte first. -/
theorem parses_word (width : Nat) :
    (word width).Parses fun n bytes => bytes.length = width ∧ n = Word.ofBytes bytes := by
  refine ((parses_take width).map Word.ofBytes).congr fun n bytes => ?_
  constructor
  · rintro ⟨value, ⟨rfl, count⟩, rfl⟩
    exact ⟨count, rfl⟩
  · rintro ⟨count, rfl⟩
    exact ⟨bytes, ⟨rfl, count⟩, rfl⟩

end Reader

/-! ### Words -/

theorem Text.twosComplement_eq (bits : Nat) (value : Int) :
    Text.twosComplement bits value = (value % (2 ^ bits : Nat)).toNat := rfl

theorem Word.signed_eq (width n : Nat) :
    Word.signed width n =
      if n < 2 ^ (8 * width - 1) then (n : Int) else n - (2 ^ (8 * width) : Nat) := rfl

theorem Word.ofBytes_toBytes_of_lt {width n : Nat} (small : n < 256 ^ width) :
    Word.ofBytes (Word.toBytes width n) = n :=
  (Word.ofBytes_toBytes width n).trans (Nat.mod_eq_of_lt small)

/-! ### Operands -/

namespace Operand

variable {shape : Shape} {operand : Operand} {bytes : List UInt8}

/-- The bytes of an unsigned word are those that read as its value. -/
theorem unsignedBytes?_eq_some_iff {width : Nat} {value : Int} :
    unsignedBytes? width value = some bytes ↔
      bytes.length = width ∧ value = Word.ofBytes bytes := by
  unfold unsignedBytes?
  constructor
  · intro written
    split at written
    · next fits =>
      cases written
      have bound : value < (256 ^ width : Nat) := fits.2
      have small : value.toNat < 256 ^ width := by omega
      rw [Word.length_toBytes, Word.ofBytes_toBytes_of_lt small]
      exact ⟨rfl, by omega⟩
    · cases written
  · rintro ⟨rfl, rfl⟩
    have small := Word.ofBytes_lt bytes
    rw [if_pos ⟨by omega, by omega⟩, Int.toNat_natCast, Word.toBytes_ofBytes]

/-- A word reads as the signed value that it was made from. -/
theorem signed_twosComplement {width : Nat} (positive : 0 < width) {value : Int}
    (low : -(2 ^ (8 * width - 1) : Nat) ≤ value) (high : value < (2 ^ (8 * width - 1) : Nat)) :
    Text.twosComplement (8 * width) value < 2 ^ (8 * width) ∧
      Word.signed width (Text.twosComplement (8 * width) value) = value := by
  have double : 2 ^ (8 * width) = 2 * 2 ^ (8 * width - 1) := by
    rw [← Nat.pow_succ', Nat.succ_eq_add_one, Nat.sub_add_cancel (by omega)]
  rw [Word.signed_eq, Text.twosComplement_eq, double]
  generalize 2 ^ (8 * width - 1) = half at low high
  rcases Int.lt_or_le value 0 with negative | natural
  · have wrapped : value % (2 * half : Nat) = value + (2 * half : Nat) := by
      rw [← Int.add_emod_right, Int.emod_eq_of_lt (by omega) (by omega)]
    rw [wrapped]
    exact ⟨by omega, by rw [if_neg (by omega)]; omega⟩
  · rw [Int.emod_eq_of_lt natural (by omega)]
    exact ⟨by omega, by rw [if_pos (by omega)]; omega⟩

/-- A word is made from the signed value that it reads as. -/
theorem twosComplement_signed {width n : Nat} (positive : 0 < width) (bound : n < 2 ^ (8 * width)) :
    -((2 ^ (8 * width - 1) : Nat) : Int) ≤ Word.signed width n ∧
      Word.signed width n < (2 ^ (8 * width - 1) : Nat) ∧
      Text.twosComplement (8 * width) (Word.signed width n) = n := by
  have double : 2 ^ (8 * width) = 2 * 2 ^ (8 * width - 1) := by
    rw [← Nat.pow_succ', Nat.succ_eq_add_one, Nat.sub_add_cancel (by omega)]
  rw [Word.signed_eq, Text.twosComplement_eq]
  rw [double] at bound ⊢
  generalize 2 ^ (8 * width - 1) = half at bound
  split
  · rw [Int.emod_eq_of_lt (by omega) (by omega)]
    omega
  · have wrapped : ((n : Int) - (2 * half : Nat)) % (2 * half : Nat) = n := by
      rw [Int.sub_emod_right, Int.emod_eq_of_lt (by omega) (by omega)]
    rw [wrapped]
    omega

/-- The bytes of a two's complement word are those that read as its value. -/
theorem signedBytes?_eq_some_iff {width : Nat} (positive : 0 < width) {value : Int} :
    signedBytes? width value = some bytes ↔
      bytes.length = width ∧ value = Word.signed width (Word.ofBytes bytes) := by
  have power : 256 ^ width = 2 ^ (8 * width) := by rw [Nat.pow_mul]
  unfold signedBytes?
  constructor
  · intro written
    simp only at written
    split at written
    · next fits =>
      cases written
      obtain ⟨small, same⟩ := signed_twosComplement positive fits.1 fits.2
      rw [Word.length_toBytes, Word.ofBytes_toBytes_of_lt (small.trans_eq power.symm), same]
      exact ⟨rfl, rfl⟩
    · cases written
  · rintro ⟨rfl, rfl⟩
    have small : Word.ofBytes bytes < 2 ^ (8 * bytes.length) := power ▸ Word.ofBytes_lt bytes
    obtain ⟨low, high, same⟩ := twosComplement_signed positive small
    simp only
    rw [if_pos ⟨low, high⟩, same, Word.toBytes_ofBytes]

theorem encode_unsigned_iff {width : Nat} (coding : shape.coding = .unsigned width) :
    operand.encode shape = .ok bytes ↔
      ∃ value, operand = scalar value ∧ bytes.length = width ∧
        value.toInt = Word.ofBytes bytes := by
  unfold encode
  rw [coding]
  cases operand with
  | scalar value =>
    simp only [scalar.injEq, exists_eq_left', ← unsignedBytes?_eq_some_iff]
    cases unsignedBytes? width value.toInt <;> simp
  | _ => simp

theorem encode_signed_iff {width : Nat} (coding : shape.coding = .signed width)
    (positive : 0 < width) :
    operand.encode shape = .ok bytes ↔
      ∃ value, operand = scalar value ∧ bytes.length = width ∧
        value.toInt = Word.signed width (Word.ofBytes bytes) := by
  unfold encode
  rw [coding]
  cases operand with
  | scalar value =>
    simp only [scalar.injEq, exists_eq_left', ← signedBytes?_eq_some_iff positive]
    cases signedBytes? width value.toInt <;> simp
  | _ => simp

theorem encode_branch_iff {width : Nat} (coding : shape.coding = .branch width) :
    operand.encode shape = .ok bytes ↔
      ∃ value, operand = offset value ∧ bytes.length = width ∧
        value.toInt = Word.ofBytes bytes := by
  unfold encode
  rw [coding]
  cases operand with
  | offset value =>
    simp only [offset.injEq, exists_eq_left', ← unsignedBytes?_eq_some_iff]
    cases unsignedBytes? width value.toInt <;> simp
  | _ => simp

theorem encode_block_iff {overhead limit : Nat} (coding : shape.coding = .block overhead limit) :
    operand.encode shape = .ok bytes ↔
      ∃ payload, operand = Operand.bytes payload ∧ payload.length + overhead ≤ limit ∧
        bytes = (payload.length + overhead).toUInt8 :: payload := by
  unfold encode
  rw [coding]
  cases operand with
  | bytes payload =>
    simp only [Operand.bytes.injEq, exists_eq_left']
    by_cases fits : payload.length + overhead ≤ limit
    · rw [if_pos fits]
      simp [fits, eq_comm]
    · rw [if_neg fits]
      simp [fits]
  | _ => simp

/-- A coding whose words fit the values that they stand for, and whose blocks fit the size byte. -/
def Bounded : Coding → Prop
  | .unsigned width => width ≤ 4
  | .signed width => width = 2
  | .branch width => width ≤ 2
  | .block _ limit => limit ≤ 255

theorem bounded_coding (shape : Shape) : Bounded shape.coding := by
  cases shape <;> simp [Shape.coding, Shape.maxCounted, Bounded]

theorem ofBytes_lt_of_length_le {width : Nat} (short : bytes.length ≤ width) :
    Word.ofBytes bytes < 256 ^ width :=
  Nat.lt_of_lt_of_le (Word.ofBytes_lt bytes) (Nat.pow_le_pow_right (by decide) short)

/-- Reading a word and making a number of it accepts the words that stand for the number. -/
theorem parses_number {ν : Type} {width : Nat} {toInt : ν → Int} (make : ν → Operand)
    (ofWord : Nat → ν) (number : Nat → Int) (faithful : Function.Injective toInt)
    (exact : ∀ n < 256 ^ width, toInt (ofWord n) = number n) :
    Reader.Parses (do return make (ofWord (← Reader.word width))) fun operand bytes =>
      ∃ value, operand = make value ∧ bytes.length = width ∧
        toInt value = number (Word.ofBytes bytes) := by
  refine ((Reader.parses_word width).map fun n => make (ofWord n)).congr fun operand bytes => ?_
  constructor
  · rintro ⟨_, ⟨count, rfl⟩, rfl⟩
    exact ⟨_, rfl, count, exact _ (ofBytes_lt_of_length_le (Nat.le_of_eq count))⟩
  · rintro ⟨value, rfl, count, same⟩
    have own := exact _ (ofBytes_lt_of_length_le (Nat.le_of_eq count))
    exact ⟨_, ⟨count, rfl⟩, by rw [faithful (same.trans own.symm)]⟩

/-- Reading a block accepts a size byte that counts the overhead, and as many bytes as it says. -/
theorem parses_block {overhead limit : Nat} (bounded : limit ≤ 255) :
    Reader.Parses (do
      let size ← Reader.word 1
      if size < overhead ∨ limit < size then
        throw (OperandError.badBlockSize size)
      return Operand.bytes (← Reader.take (size - overhead))) fun operand bytes =>
      ∃ payload, operand = Operand.bytes payload ∧ payload.length + overhead ≤ limit ∧
        bytes = (payload.length + overhead).toUInt8 :: payload := by
  have payload := fun size : Nat => Reader.parses_unless
    (fun _ => do return Operand.bytes (← Reader.take (size - overhead)))
    ((Reader.parses_take (size - overhead)).map Operand.bytes) (size < overhead ∨ limit < size)
    (OperandError.badBlockSize size)
  refine ((Reader.parses_word 1).bind payload).congr fun operand bytes => ?_
  constructor
  · rintro ⟨size, front, back, ⟨count, rfl⟩, ⟨possible, payload, ⟨rfl, length⟩, rfl⟩, rfl⟩
    have total : payload.length + overhead = Word.ofBytes front := by omega
    refine ⟨payload, rfl, by omega, ?_⟩
    obtain ⟨byte, rfl⟩ := List.length_eq_one_iff.mp count
    rw [total]
    simp [Word.ofBytes]
  · rintro ⟨payload, rfl, fits, rfl⟩
    have byte : Word.ofBytes [(payload.length + overhead).toUInt8] =
        payload.length + overhead := by
      simp only [Word.ofBytes, Nat.toUInt8, UInt8.toNat_ofNat']
      omega
    refine ⟨_, [_], payload, ⟨rfl, rfl⟩, ⟨?_, payload, ⟨rfl, ?_⟩, rfl⟩, rfl⟩
    · rw [byte]
      omega
    · rw [byte]
      omega

/-- **The operands read in a shape are those that can be written in it.** -/
theorem parses_decode (shape : Shape) :
    (decode shape).Parses fun operand bytes => operand.encode shape = .ok bytes := by
  have bounded := bounded_coding shape
  unfold decode
  cases coding : shape.coding with
  | unsigned width =>
    rw [coding, Bounded] at bounded
    refine (parses_number scalar Int64.ofNat Nat.cast (fun _ _ => Int64.toInt_inj.mp)
      fun n small => ?_).congr fun operand bytes => (encode_unsigned_iff coding).symm
    have fits : 256 ^ width ≤ 256 ^ 4 := Nat.pow_le_pow_right (by decide) bounded
    exact Int64.toInt_ofNat_of_lt (by omega)
  | signed width =>
    rw [coding, Bounded] at bounded
    subst bounded
    refine (parses_number scalar (fun n => Int64.ofInt (Word.signed 2 n)) (Word.signed 2)
      (fun _ _ => Int64.toInt_inj.mp) fun n small => ?_).congr
      fun operand bytes => (encode_signed_iff coding (by decide)).symm
    obtain ⟨low, high, _⟩ := twosComplement_signed (by decide) (show n < 2 ^ (8 * 2) from small)
    exact Int64.toInt_ofInt_of_le (by omega) (by omega)
  | branch width =>
    rw [coding, Bounded] at bounded
    refine (parses_number offset Int32.ofNat Nat.cast (fun _ _ => Int32.toInt_inj.mp)
      fun n small => ?_).congr fun operand bytes => (encode_branch_iff coding).symm
    have fits : 256 ^ width ≤ 256 ^ 2 := Nat.pow_le_pow_right (by decide) bounded
    exact Int32.toInt_ofNat_of_lt (by omega)
  | block overhead limit =>
    rw [coding, Bounded] at bounded
    exact (parses_block bounded).congr fun operand bytes => (encode_block_iff coding).symm

/-- A written operand has the length that its shape and value announce. -/
theorem size?_of_encode {shape : Shape} {operand : Operand} {written : List UInt8}
    (encoded : operand.encode shape = .ok written) : operand.size? shape = some written.length := by
  unfold size? Shape.width?
  have bounded := bounded_coding shape
  cases coding : shape.coding with
  | unsigned width =>
    obtain ⟨value, rfl, count, _⟩ := (encode_unsigned_iff coding).mp encoded
    simp [count]
  | signed width =>
    rw [coding, Bounded] at bounded
    obtain ⟨value, rfl, count, _⟩ := (encode_signed_iff coding (by omega)).mp encoded
    simp [count]
  | branch width =>
    obtain ⟨value, rfl, count, _⟩ := (encode_branch_iff coding).mp encoded
    simp [count]
  | block overhead limit =>
    obtain ⟨payload, rfl, _, rfl⟩ := (encode_block_iff coding).mp encoded
    simp

/-- A label cannot be written. -/
theorem encode_label (shape : Shape) (id : Nat) (written : List UInt8) :
    (label id).encode shape ≠ .ok written := by
  unfold encode
  cases shape.coding <;> simp

end Operand

/-! ### Instructions -/

/-- The bytes of operands in given shapes, one after the other. -/
inductive Written : List Shape → List Operand → List UInt8 → Prop
  | nil : Written [] [] []
  | cons {shape : Shape} {operand : Operand} {shapes : List Shape} {operands : List Operand}
      {front back : List UInt8} :
      operand.encode shape = .ok front → Written shapes operands back →
      Written (shape :: shapes) (operand :: operands) (front ++ back)

namespace Written

variable {shapes : List Shape} {operands : List Operand} {bytes : List UInt8}

theorem length_eq (written : Written shapes operands bytes) : shapes.length = operands.length := by
  induction written with
  | nil => rfl
  | cons _ _ ih => simp [ih]

/-- The bytes of operands are determined by them. -/
theorem unique (written : Written shapes operands bytes) {bytes' : List UInt8}
    (written' : Written shapes operands bytes') : bytes = bytes' := by
  induction written generalizing bytes' with
  | nil =>
    cases written'
    rfl
  | cons encoded _ ih =>
    cases written' with
    | cons encoded' rest' =>
      rw [encoded] at encoded'
      cases encoded'
      rw [ih rest']

theorem append {shapes' : List Shape} {operands' : List Operand} {bytes' : List UInt8}
    (written : Written shapes operands bytes) (written' : Written shapes' operands' bytes') :
    Written (shapes ++ shapes') (operands ++ operands') (bytes ++ bytes') := by
  induction written with
  | nil => exact written'
  | cons encoded _ ih =>
    rw [List.append_assoc]
    exact .cons encoded ih

/-- One more operand behind written ones. -/
theorem snoc {shape : Shape} {operand : Operand} {last : List UInt8}
    (written : Written shapes operands bytes) (encoded : operand.encode shape = .ok last) :
    Written (shapes ++ [shape]) (operands ++ [operand]) (bytes ++ last) := by
  have single : Written [shape] [operand] (last ++ []) := .cons encoded .nil
  rw [List.append_nil] at single
  exact written.append single

/-- The last of written operands, apart from the ones before it. -/
theorem snoc_inv {shape : Shape} (written : Written (shapes ++ [shape]) operands bytes) :
    ∃ before operand front last, operands = before ++ [operand] ∧ bytes = front ++ last ∧
      Written shapes before front ∧ operand.encode shape = .ok last := by
  induction shapes generalizing operands bytes with
  | nil =>
    cases written with
    | cons encoded rest =>
      cases rest
      exact ⟨[], _, [], _, rfl, by rw [List.append_nil, List.nil_append], .nil, encoded⟩
  | cons first shapes ih =>
    cases written with
    | cons encoded rest =>
      obtain ⟨before, operand, front, last, rfl, rfl, inner, final⟩ := ih rest
      exact ⟨_ :: before, operand, _ ++ front, last, rfl, (List.append_assoc ..).symm,
        .cons encoded inner, final⟩

theorem not_label (written : Written shapes operands bytes) {id : Nat} :
    Operand.label id ∉ operands := by
  induction written with
  | nil => exact List.not_mem_nil
  | @cons shape operand _ _ _ _ encoded _ ih =>
    intro member
    rcases List.mem_cons.mp member with rfl | later
    · exact Operand.encode_label _ _ _ encoded
    · exact ih later

/-- Written operands are as long as their shapes and values announce. -/
theorem length_sum (written : Written shapes operands bytes) :
    ((shapes.zip operands).map fun (shape, operand) => (operand.size? shape).getD 1).sum =
      bytes.length := by
  induction written with
  | nil => rfl
  | cons encoded _ ih =>
    simp only [List.zip_cons_cons, List.map_cons, List.sum_cons, ih, List.length_append,
      Operand.size?_of_encode encoded, Option.getD_some]

/-- The shape and the value of a written operand announce a length. -/
theorem size?_isSome (written : Written shapes operands bytes) :
    ∀ pair ∈ shapes.zip operands, (pair.2.size? pair.1).isSome = true := by
  induction written with
  | nil => simp
  | cons encoded _ ih =>
    intro pair among
    rcases List.mem_cons.mp among with rfl | later
    · rw [Operand.size?_of_encode encoded, Option.isSome_some]
    · exact ih pair later

/-- The operands read in given shapes are those that can be written in them. -/
theorem parses (shapes : List Shape) :
    (shapes.mapM Operand.decode).Parses (Written shapes) := by
  induction shapes with
  | nil =>
    refine (Reader.parses_pure []).congr fun operands bytes => ?_
    constructor
    · rintro ⟨rfl, rfl⟩
      exact .nil
    · intro written
      cases written
      exact ⟨rfl, rfl⟩
  | cons shape shapes ih =>
    rw [List.mapM_cons]
    refine ((Operand.parses_decode shape).bind fun operand => ih.map (operand :: ·)).congr
      fun operands bytes => ?_
    constructor
    · rintro ⟨operand, front, back, encoded, ⟨rest, written, rfl⟩, rfl⟩
      exact .cons encoded written
    · intro written
      cases written with
      | cons encoded rest => exact ⟨_, _, _, encoded, ⟨_, rest, rfl⟩, rfl⟩

/-- Operands are determined by their bytes. -/
theorem operands_unique {operands' : List Operand} (written : Written shapes operands bytes)
    (written' : Written shapes operands' bytes) : operands = operands' := by
  have read : ∀ {operands : List Operand}, Written shapes operands bytes →
      shapes.mapM Operand.decode (Cursor.ofBytes bytes) =
        .ok operands { pos := bytes.length, rest := [] } := fun written =>
    (parses shapes _ _ _).mpr ⟨bytes, written, (List.append_nil _).symm, (Nat.zero_add _).symm⟩
  have same := (read written).symm.trans (read written')
  cases same
  rfl

end Written

namespace Instruction

theorem writeOperands_eq_iff {shapes : List Shape} {operands : List Operand} {bytes : List UInt8}
    (count : shapes.length = operands.length) :
    writeOperands (shapes.zip operands) = (bytes, none) ↔ Written shapes operands bytes := by
  induction shapes generalizing operands bytes with
  | nil =>
    cases operands with
    | nil =>
      constructor
      · intro written
        cases written
        exact .nil
      · intro written
        cases written
        rfl
    | cons operand operands => cases count
  | cons shape shapes ih =>
    cases operands with
    | nil => cases count
    | cons operand operands =>
      have shorter : shapes.length = operands.length := Nat.succ.inj count
      rw [List.zip_cons_cons, writeOperands]
      cases encoded : operand.encode shape with
      | error cause =>
        constructor
        · intro written
          cases written
        · intro written
          cases written with
          | cons encoded' _ =>
            rw [encoded] at encoded'
            cases encoded'
      | ok front =>
        simp only
        constructor
        · intro written
          cases following : writeOperands (shapes.zip operands) with
          | mk back failure =>
            rw [following] at written
            cases written
            exact .cons encoded ((ih shorter).mp following)
        · intro written
          cases written with
          | cons encoded' rest =>
            rw [encoded] at encoded'
            cases encoded'
            rw [(ih shorter).mpr rest]

/-- **An instruction is its code and then its operands in the shapes of its row.** -/
theorem encode_eq_ok_iff {instruction : Instruction} {bytes : List UInt8} :
    instruction.encode = .ok bytes ↔
      ∃ opcode body, instruction.opcode? = some opcode ∧
        Written opcode.shapes instruction.operands body ∧ bytes = instruction.opcode :: body := by
  unfold encode write
  cases known : instruction.opcode? with
  | none => simp
  | some opcode =>
    by_cases count : opcode.shapes.length = instruction.operands.length
    · simp only [if_pos count]
      constructor
      · intro encoded
        cases operands : writeOperands (opcode.shapes.zip instruction.operands) with
        | mk body failure =>
          rw [operands] at encoded
          cases failure with
          | some cause => cases encoded
          | none =>
            cases encoded
            exact ⟨opcode, body, rfl, (writeOperands_eq_iff count).mp operands, rfl⟩
      · rintro ⟨_, body, same, written, rfl⟩
        cases same
        rw [(writeOperands_eq_iff count).mpr written]
    · simp only [if_neg count]
      constructor
      · intro encoded
        cases encoded
      · rintro ⟨_, body, same, written, rfl⟩
        cases same
        exact absurd written.length_eq count

/-- Announced lengths are added up, if there are any. -/
theorem foldlM_size? {pairs : List (Shape × Operand)}
    (announced : ∀ pair ∈ pairs, (pair.2.size? pair.1).isSome = true) (start : Nat) :
    pairs.foldlM (fun size pair => (pair.2.size? pair.1).map (size + ·)) start =
      some (start + (pairs.map fun pair => (pair.2.size? pair.1).getD 1).sum) := by
  induction pairs generalizing start with
  | nil => rfl
  | cons pair pairs ih =>
    obtain ⟨own, known⟩ := Option.isSome_iff_exists.mp (announced pair List.mem_cons_self)
    have rest :=
      ih (fun other among => announced other (List.mem_cons_of_mem _ among)) (start + own)
    rw [List.foldlM_cons, known, Option.map_some, List.map_cons, List.sum_cons, known,
      Option.getD_some, ← Nat.add_assoc]
    exact rest

/-- The length of an instruction all of whose operands announce one. -/
theorem size?_eq {instruction : Instruction} {opcode : Opcode}
    (known : instruction.opcode? = some opcode)
    (announced : ∀ pair ∈ opcode.shapes.zip instruction.operands,
      (pair.2.size? pair.1).isSome = true) :
    instruction.size? = some (1 + ((opcode.shapes.zip instruction.operands).map fun pair =>
      (pair.2.size? pair.1).getD 1).sum) := by
  unfold size?
  rw [known]
  exact foldlM_size? announced 1

/-- **A written instruction has the length that it announces.** -/
theorem size?_of_encode {instruction : Instruction} {bytes : List UInt8}
    (encoded : instruction.encode = .ok bytes) : instruction.size? = some bytes.length := by
  obtain ⟨opcode, body, known, written, rfl⟩ := encode_eq_ok_iff.mp encoded
  have total : ((opcode.shapes.zip instruction.operands).map fun pair =>
      (pair.2.size? pair.1).getD 1).sum = body.length := written.length_sum
  rw [size?_eq known written.size?_isSome, total, List.length_cons, Nat.add_comm]

theorem length_pos_of_encode {instruction : Instruction} {bytes : List UInt8}
    (encoded : instruction.encode = .ok bytes) : 0 < bytes.length := by
  obtain ⟨_, _, _, _, rfl⟩ := encode_eq_ok_iff.mp encoded
  exact Nat.succ_pos _

theorem parses_decodeOperands (offset : Nat) (code : UInt8) :
    (decodeOperands offset code).Parses fun instruction body =>
      instruction.opcode = code ∧ ∃ opcode, Opcode.ofCode? code = some opcode ∧
        Written opcode.shapes instruction.operands body := by
  unfold decodeOperands
  cases known : Opcode.ofCode? code with
  | none =>
    intro cursor instruction next
    constructor
    · intro accepted
      cases accepted
    · rintro ⟨_, ⟨_, _, impossible, _⟩, _⟩
      cases impossible
  | some opcode =>
    refine (((Written.parses opcode.shapes).adapt (decodeError offset)).map fun operands =>
      { opcode := code, operands : Instruction }).congr fun instruction body => ?_
    constructor
    · rintro ⟨operands, written, rfl⟩
      exact ⟨rfl, opcode, rfl, written⟩
    · rintro ⟨rfl, _, same, written⟩
      cases same
      exact ⟨_, written, rfl⟩

theorem parses_decodeAt (offset : Nat) :
    Reader.Parses (EStateM.adaptExcept (decodeError offset) (Reader.word 1) >>= fun code =>
      decodeOperands offset code.toUInt8) fun instruction bytes =>
        instruction.encode = .ok bytes := by
  refine (((Reader.parses_word 1).adapt (decodeError offset)).bind fun code =>
    parses_decodeOperands offset code.toUInt8).congr fun instruction bytes => ?_
  rw [encode_eq_ok_iff]
  constructor
  · rintro ⟨code, front, back, ⟨count, rfl⟩, ⟨same, opcode, known, written⟩, rfl⟩
    obtain ⟨byte, rfl⟩ := List.length_eq_one_iff.mp count
    have code : (Word.ofBytes [byte]).toUInt8 = byte := by simp [Word.ofBytes]
    rw [code] at same known
    exact ⟨opcode, back, by rw [opcode?, same, known], written, by rw [same]; rfl⟩
  · rintro ⟨opcode, body, known, written, rfl⟩
    have code : (Word.ofBytes [instruction.opcode]).toUInt8 = instruction.opcode := by
      simp [Word.ofBytes]
    exact ⟨_, [instruction.opcode], body, ⟨rfl, rfl⟩, ⟨code.symm, opcode, by rw [code]; exact known,
      written⟩, rfl⟩

/-- **The instructions that are read are those that can be written.** -/
theorem parses_decode :
    decode.Parses fun instruction bytes => instruction.encode = .ok bytes :=
  fun cursor => parses_decodeAt cursor.pos cursor

/-- **Reading and writing an instruction are inverse to each other.** What was written is read back
from in front of any bytes, up to where it ends, and is as long as the instruction announces; and an
instruction that was read is written as the bytes that were read. -/
theorem decode_encode (instruction : Instruction) :
    (∀ bytes, instruction.encode = .ok bytes →
      instruction.size? = some bytes.length ∧
        ∀ start suffix, decode { pos := start, rest := bytes ++ suffix } =
          .ok instruction { pos := start + bytes.length, rest := suffix }) ∧
    ∀ cursor next, decode cursor = .ok instruction next →
      ∃ bytes, cursor.rest = bytes ++ next.rest ∧ next.pos = cursor.pos + bytes.length ∧
        instruction.encode = .ok bytes := by
  refine ⟨fun bytes encoded => ⟨size?_of_encode encoded, fun start suffix => ?_⟩,
    fun cursor next read => ?_⟩
  · exact (parses_decode _ _ _).mpr ⟨bytes, encoded, rfl, rfl⟩
  · obtain ⟨bytes, encoded, split, moved⟩ := (parses_decode _ _ _).mp read
    exact ⟨bytes, split, moved, encoded⟩

/-- The largest word of four bytes and the longest counted payload. -/
def brimful : Instruction where
  opcode := 0x1C
  operands := [.scalar 4294967295, .bytes (List.replicate 128 255)]

theorem decode_encode_brimful :
    ∃ bytes, brimful.encode = .ok bytes ∧ bytes.length = 134 ∧
      brimful.size? = some bytes.length ∧
      decode { pos := 0, rest := bytes ++ [0x5F] } =
        .ok brimful { pos := 0 + bytes.length, rest := [0x5F] } := by
  have encoded : brimful.encode =
      .ok (0x1C :: 255 :: 255 :: 255 :: 255 :: 128 :: List.replicate 128 255) := by
    decide +kernel
  obtain ⟨announced, read⟩ := (decode_encode brimful).1 _ encoded
  exact ⟨_, encoded, by decide +kernel, announced, read 0 [0x5F]⟩

end Instruction

end SceneScript
