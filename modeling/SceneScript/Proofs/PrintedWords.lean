/-
**The words of a printed line.**

An instruction is printed as its mnemonic and its operands. No two mnemonics differ only in case, so
a mnemonic names its row. Values are printed in three ways (`Prints`), and each of them reads back
and cannot be taken for anything else in a line.

* `Opcode.ofMnemonic?_mnemonic`: a row is found under its own mnemonic;
* `Opcode.plain_mnemonic`: a mnemonic has nothing in it that cuts or ends a line;
* `prints_operandText`: an operand that can be written is printed in one of the three ways;
* `Prints.parseOperand_eq`, `Prints.neat`: what is printed reads back, and it is neat.
-/

import SceneScript.Proofs.Codec
import SceneScript.Proofs.Numerals
import SceneScript.Proofs.Printing

namespace SceneScript

open Text Listing

/-! ### Mnemonics -/

namespace Opcode

/-- The mnemonic of an opcode as a number, without regard to case. -/
def mnemonicKey (opcode : Opcode) : Nat :=
  (foldCase opcode.mnemonic).foldl (fun key c => key * 256 + c.toNat) 0

/-- Whether numbers differ from each other, in a form that evaluates fast. -/
def allDiffer : List Nat → Bool
  | [] => true
  | first :: rest => rest.all (fun other => !Nat.beq first other) && allDiffer rest

theorem nodup_of_allDiffer {keys : List Nat} (differ : allDiffer keys = true) : keys.Nodup := by
  induction keys with
  | nil => exact List.nodup_nil
  | cons first rest ih =>
    rw [allDiffer, Bool.and_eq_true, List.all_eq_true] at differ
    refine List.nodup_cons.mpr ⟨fun among => ?_, ih differ.2⟩
    simpa using differ.1 first among

/-- No two mnemonics differ only in case. -/
theorem nodup_mnemonicKeys : (catalogue.map mnemonicKey).Nodup :=
  nodup_of_allDiffer (by decide +kernel)

/-- **A row is found under its own mnemonic.** -/
theorem ofMnemonic?_mnemonic {opcode : Opcode} (member : opcode ∈ catalogue) :
    ofMnemonic? opcode.mnemonic = some opcode := by
  cases found : ofMnemonic? opcode.mnemonic with
  | none =>
    have missed := List.find?_eq_none.mp found opcode member
    simp at missed
  | some row =>
    have matched := List.find?_some found
    have folded : foldCase row.mnemonic = foldCase opcode.mnemonic := eq_of_beq matched
    have same : row.mnemonicKey = opcode.mnemonicKey := by
      rw [mnemonicKey, folded, mnemonicKey]
    have listed := List.mem_of_find?_eq_some found
    rw [List.inj_on_of_nodup_map nodup_mnemonicKeys listed member same]

/-- Whether a character can be part of a mnemonic: an exclamation mark, a digit or a letter. -/
def inMnemonic (c : Char) : Bool :=
  Nat.beq c.toNat 33 || (Nat.ble 48 c.toNat && Nat.ble c.toNat 57) ||
    (Nat.ble 65 c.toNat && Nat.ble c.toNat 122)

theorem plain_of_inMnemonic {c : Char} (part : inMnemonic c = true) :
    Plain c ∧ c ≠ '#' ∧ c ≠ ':' := by
  have code : c.toNat = 33 ∨ (48 ≤ c.toNat ∧ c.toNat ≤ 57) ∨ (65 ≤ c.toNat ∧ c.toNat ≤ 122) := by
    simpa [inMnemonic, or_assoc] using part
  have solid : isBlank c = false := by
    simp only [isBlank, blankRanges, List.any_cons, List.any_nil, Bool.or_false,
      Bool.or_eq_false_iff, Bool.and_eq_false_iff, decide_eq_false_iff_not]
    omega
  refine ⟨⟨solid, ?_, ?_⟩, ?_, ?_⟩ <;>
  · rintro rfl
    revert part
    decide

/-- **A mnemonic has nothing in it that cuts or ends a line.** -/
theorem plain_mnemonic {opcode : Opcode} (member : opcode ∈ catalogue) :
    opcode.mnemonic.toList ≠ [] ∧
      ∀ c ∈ opcode.mnemonic.toList, Plain c ∧ c ≠ '#' ∧ c ≠ ':' := by
  have rows : catalogue.all (fun row => !row.mnemonic.toList.isEmpty &&
      row.mnemonic.toList.all inMnemonic) = true := by
    decide +kernel
  have own := List.all_eq_true.mp rows opcode member
  rw [Bool.and_eq_true, List.all_eq_true] at own
  exact ⟨by simpa using own.1, fun c among => plain_of_inMnemonic (own.2 c among)⟩

end Opcode

/-! ### Numbers and payloads -/

namespace Listing

/-- The three ways in which a value is printed. -/
inductive Prints (shape : Shape) : Operand → String → Prop
  | hex {value : Int64} (width : Nat) : shape.isBlock = false → 0 ≤ value.toInt →
      Prints shape (.scalar value) (hexPadded width value.toInt.toNat)
  | decimal {value : Int64} : shape.isBlock = false → -0x8000000000000000 < value.toInt →
      Prints shape (.scalar value) (toString value.toInt)
  | block {payload : List UInt8} : shape.isBlock = true →
      Prints shape (.bytes payload) (payloadText payload)

variable {shape : Shape} {operand : Operand} {text : String}

theorem twosComplement_of_nonneg {value : Int64} (positive : 0 ≤ value.toInt) :
    twosComplement 64 value.toInt = value.toInt.toNat := by
  have most := value.toInt_lt
  rw [twosComplement_eq, Int.emod_eq_of_lt positive (by omega)]

/-- **An operand that can be written is printed in one of the three ways.** -/
theorem prints_operandText (script : Script) (value : shape.isBranch = false)
    {bytes : List UInt8} (encoded : operand.encode shape = .ok bytes) :
    Prints shape operand (operandText script shape operand) := by
  have bounded := Operand.bounded_coding shape
  cases coding : shape.coding with
  | unsigned width =>
    obtain ⟨value, rfl, _, read⟩ := (Operand.encode_unsigned_iff coding).mp encoded
    have positive : 0 ≤ value.toInt := by omega
    have single : shape.isBlock = false := by rw [Shape.isBlock, coding]
    simp only [operandText, twosComplement_of_nonneg positive]
    split
    · exact .hex 2 single positive
    · cases coding
    · exact .hex 1 single positive
  | signed width =>
    obtain rfl : shape = .int16 := by cases shape <;> first | rfl | cases coding
    obtain rfl : width = 2 := by rwa [coding] at bounded
    obtain ⟨value, rfl, _, read⟩ := (Operand.encode_signed_iff coding (by decide)).mp encoded
    refine .decimal rfl ?_
    rw [read, Word.signed_eq]
    split <;> omega
  | branch width =>
    rw [Shape.isBranch, coding] at value
    cases value
  | block overhead limit =>
    obtain ⟨payload, rfl, _, _⟩ := (Operand.encode_block_iff coding).mp encoded
    exact .block (by rw [Shape.isBlock, coding])

theorem toList_payloadText (payload : List UInt8) :
    (payloadText payload).toList =
      '[' :: (List.intercalate [' '] (payload.map fun b => (hexByte b).toList) ++ [']']) := by
  rw [payloadText, String.toList_append, String.toList_append, String.toList_intercalate,
    List.map_map, List.append_assoc]
  rfl

theorem hexByte_ne_nil (b : UInt8) : (hexByte b).toList ≠ [] := by
  intro empty
  have read := readByte_hexByte b
  rw [empty] at read
  cases read

/-- A payload reads back. -/
theorem parseBlock_payloadText (payload : List UInt8) :
    parseBlock (payloadText payload) = .ok payload := by
  have solid : ∀ piece ∈ payload.map fun b => (hexByte b).toList,
      piece ≠ [] ∧ ∀ c ∈ piece, isBlank c = false := by
    refine List.forall_mem_map.mpr fun b _ => ⟨hexByte_ne_nil b, fun c among => ?_⟩
    obtain ⟨digit, small, rfl⟩ := exists_digit_of_mem_hexDigits among
    exact isBlank_digitChar small
  rw [parseBlock, toList_payloadText, unbracket?, List.getLast?_concat, if_pos rfl,
    List.dropLast_concat]
  simp only [words_intercalate (by decide : isBlank ' ' = true) solid]
  refine Traversal.mapM_eq_ok_iff.mpr (List.forall₂_map_left_iff.mpr ?_)
  refine List.forall₂_same.mpr fun b _ => ?_
  rw [readByte_hexByte]

/-- **What is printed reads back.** -/
theorem Prints.parseOperand_eq (prints : Prints shape operand text) (value : shape.isBranch = false)
    (labels : Array Label) : parseOperand labels shape text = .ok (operand, labels) := by
  unfold parseOperand
  rw [value, if_neg Bool.false_ne_true]
  cases prints with
  | hex width single positive =>
    rw [single, if_neg Bool.false_ne_true, parseInt64_hexPadded width positive]
  | decimal single least =>
    rw [single, if_neg Bool.false_ne_true, parseInt64_toString least]
  | block several =>
    rw [several, if_pos rfl, parseBlock_payloadText]
    rfl

/-! ### Neat operands -/

theorem plain_digitChar {digit : Nat} (known : digit < 16) :
    Plain digit.digitChar ∧ digit.digitChar ≠ ':' := by
  have digits : ∀ digit < 16, Plain digit.digitChar ∧ digit.digitChar ≠ ':' := by decide
  exact digits digit known

/-- A text of plain characters other than colons is neat. -/
theorem neat_word {text : List Char} (nonempty : text ≠ [])
    (plain : ∀ c ∈ text, Plain c ∧ c ≠ ':') : Neat text :=
  neat_of_plain nonempty (fun c among => (plain c among).1)
    fun last => (plain ':' (List.mem_of_getLast? last)).2 rfl

theorem neat_hexPadded (width n : Nat) : Neat (hexPadded width n).toList := by
  rw [toList_hexPadded]
  refine neat_word (List.cons_ne_nil _ _) fun c among => ?_
  simp only [List.mem_cons] at among
  rcases among with rfl | rfl | own
  · decide
  · decide
  · obtain ⟨digit, small, rfl⟩ := exists_digit_of_mem_hexDigits own
    exact plain_digitChar small

theorem plain_repr (n : Nat) : ∀ c ∈ n.repr.toList, Plain c ∧ c ≠ ':' := by
  intro c among
  rw [Nat.toList_repr] at among
  obtain ⟨digit, small, rfl⟩ := exists_digit_of_mem_toDigits (by decide) among
  exact plain_digitChar (by omega)

theorem neat_toString (value : Int) : Neat (toString value).toList := by
  show Neat value.repr.toList
  rw [Int.repr_eq_if]
  split
  · refine neat_word ?_ (plain_repr _)
    rw [Nat.toList_repr]
    exact Nat.toDigits_ne_nil
  · rw [String.toList_append]
    exact neat_word (List.cons_ne_nil _ _) (List.forall_mem_cons.mpr ⟨by decide, plain_repr _⟩)

theorem neat_payloadText (payload : List UInt8) : Neat (payloadText payload).toList := by
  rw [toList_payloadText]
  refine ⟨?_, fun c among => ?_⟩
  · have single : ∀ c, Plain c → c ≠ ':' → Tidy [c] := by
      intro c plain other
      exact tidy_of_plain (List.cons_ne_nil c []) (List.forall_mem_singleton.mpr plain)
        (by simpa using other)
    exact (single '[' (by decide) (by decide)).append _ (single ']' (by decide) (by decide))
  · rcases List.mem_cons.mp among with rfl | inner
    · decide
    · rcases List.mem_append.mp inner with joined | last
      · rcases mem_intercalate joined with blank | ⟨piece, listed, own⟩
        · rw [List.mem_singleton.mp blank]
          decide
        · obtain ⟨b, _, rfl⟩ := List.mem_map.mp listed
          obtain ⟨digit, small, rfl⟩ := exists_digit_of_mem_hexDigits own
          obtain ⟨plain, _⟩ := plain_digitChar small
          exact ⟨plain.2.1, plain.2.2, plain.ne_feed⟩
      · rw [List.mem_singleton.mp last]
        decide

/-- **What is printed is neat.** -/
theorem Prints.neat (prints : Prints shape operand text) : Neat text.toList := by
  cases prints with
  | hex width => exact neat_hexPadded width _
  | decimal => exact neat_toString _
  | block => exact neat_payloadText _

end Listing

end SceneScript
