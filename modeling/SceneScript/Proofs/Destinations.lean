/-
**Destinations in bytes.**

A written branch holds a number for its destination: a long one the place itself, a short one the
distance from its own end. `Instruction.Resolved` takes a written instruction apart into its row,
the bytes of its other operands and that number; `Flow.landing` says where the number leads.

* `Instruction.exists_encode_iff`: the instructions that can be written are those that can be taken
  apart, and their length follows from the parts;
* `Instruction.Resolved.unique`: the parts determine the instruction;
* `Placed.destination?_eq`: a decoded branch goes where its number leads;
* `Layout.Reaches`: whether a branch can hold a destination, given the lengths of all instructions;
* `landing_held`, `reaches_of_landing`: it holds the right number if it can, and only if it can.
-/

import SceneScript.Disassembly
import SceneScript.Proofs.Catalogue
import SceneScript.Proofs.Codec
import SceneScript.Proofs.Offsets

namespace SceneScript

open Layout

theorem BranchWidth.coding_shape (width : BranchWidth) :
    width.shape.coding = .branch width.bytes := by
  cases width <;> rfl

namespace Flow

/-- Where a branch leads that ends at `next` and holds the number `raw`. -/
def landing (flow : Flow) (next raw : Int) : Int :=
  if flow.isLong then raw else if flow.isBackward then next - raw else next + raw

variable {flow : Flow} {width : BranchWidth}

theorem hasTarget_eq_false_iff : flow.hasTarget = false ↔ flow.width? = none :=
  Option.isSome_eq_false_iff.trans Option.isNone_iff_eq_none

theorem destinationSize_of_width? (branches : flow.width? = some width) :
    flow.destinationSize = width.bytes := by
  rw [destinationSize, branches]
  rfl

theorem destinationSize_of_plain (plain : flow.hasTarget = false) : flow.destinationSize = 0 := by
  rw [destinationSize, hasTarget_eq_false_iff.mp plain]
  rfl

end Flow

namespace Instruction

/-- A written instruction, taken apart: its row, the bytes of its operands other than the
destination, and the number that it holds for the destination. -/
inductive Resolved (instruction : Instruction) (opcode : Opcode) (body : List UInt8) :
    Option Nat → Prop
  | plain : instruction.opcode? = some opcode → opcode.flow.hasTarget = false →
      Written opcode.leading instruction.operands body → Resolved instruction opcode body none
  | branch {width : BranchWidth} {lead : List Operand} {value : Int32} {raw : Nat} :
      instruction.opcode? = some opcode → opcode.flow.width? = some width →
      Written opcode.leading lead body → instruction.operands = lead ++ [.offset value] →
      value.toInt = raw → raw < 256 ^ width.bytes → Resolved instruction opcode body (some raw)

variable {instruction : Instruction} {opcode : Opcode} {body : List UInt8} {raw : Option Nat}

theorem Resolved.known (resolved : instruction.Resolved opcode body raw) :
    instruction.opcode? = some opcode := by
  cases resolved <;> assumption

/-- **A written instruction can be put together again from its parts.** -/
theorem Resolved.unique {other : Instruction} (resolved : instruction.Resolved opcode body raw)
    (resolved' : other.Resolved opcode body raw) : instruction = other := by
  have code : instruction.opcode = other.opcode :=
    (Opcode.code_of_ofCode? resolved.known).symm.trans (Opcode.code_of_ofCode? resolved'.known)
  have operands : instruction.operands = other.operands := by
    cases resolved with
    | plain _ _ written =>
      cases resolved' with
      | plain _ _ written' => exact written.operands_unique written'
    | branch _ _ written operands value _ =>
      cases resolved' with
      | branch _ _ written' operands' value' _ =>
        rw [operands, operands', written.operands_unique written',
          Int32.toInt_inj.mp (value.trans value'.symm)]
  cases instruction
  cases other
  rw [Instruction.mk.injEq]
  exact ⟨code, operands⟩

/-- **The instructions that can be written are those that can be taken apart**, and their length
follows from the parts. -/
theorem exists_encode_iff {size : Nat} :
    (∃ own, instruction.encode = .ok own ∧ own.length = size) ↔
      ∃ opcode body raw, instruction.Resolved opcode body raw ∧
        size = 1 + body.length + opcode.flow.destinationSize := by
  simp only [encode_eq_ok_iff]
  constructor
  · rintro ⟨_, ⟨opcode, body, known, written, rfl⟩, rfl⟩
    have row := Opcode.mem_of_ofCode? known
    cases branches : opcode.flow.width? with
    | none =>
      have still := Flow.hasTarget_eq_false_iff.mpr branches
      rw [Opcode.shapes_of_plain row branches] at written
      refine ⟨opcode, body, none, .plain known still written, ?_⟩
      rw [Flow.destinationSize_of_plain still, List.length_cons]
      omega
    | some width =>
      rw [Opcode.shapes_of_branch row branches] at written
      obtain ⟨lead, operand, front, last, operands, rfl, inner, final⟩ := written.snoc_inv
      obtain ⟨value, rfl, count, same⟩ := (Operand.encode_branch_iff width.coding_shape).mp final
      refine ⟨opcode, front, some (Word.ofBytes last),
        .branch known branches inner operands same (count ▸ Word.ofBytes_lt last), ?_⟩
      rw [Flow.destinationSize_of_width? branches, List.length_cons, List.length_append, count]
      omega
  · rintro ⟨opcode, body, raw, resolved, rfl⟩
    have row := Opcode.mem_of_ofCode? resolved.known
    cases resolved with
    | plain known still written =>
      rw [← Opcode.shapes_of_plain row (Flow.hasTarget_eq_false_iff.mp still)] at written
      refine ⟨_, ⟨opcode, body, known, written, rfl⟩, ?_⟩
      rw [Flow.destinationSize_of_plain still, List.length_cons]
      omega
    | @branch width lead value raw known branches written operands same small =>
      have final : (Operand.offset value).encode width.shape =
          .ok (Word.toBytes width.bytes raw) := by
        refine (Operand.encode_branch_iff width.coding_shape).mpr ⟨value, rfl, ?_, ?_⟩
        · exact Word.length_toBytes _ _
        · rw [same, Word.ofBytes_toBytes_of_lt small]
      have whole := written.snoc final
      rw [← Opcode.shapes_of_branch row branches, ← operands] at whole
      refine ⟨_, ⟨opcode, _, known, whole, rfl⟩, ?_⟩
      rw [Flow.destinationSize_of_width? branches, List.length_cons, List.length_append,
        Word.length_toBytes]
      omega

end Instruction

/-- A decoded branch goes where the number in its operand leads. -/
theorem Placed.destination?_of_operand {item : Placed} {opcode : Opcode} {place : Nat}
    {value : Int32} (known : item.instruction.opcode? = some opcode)
    (operand : opcode.branchOperand? = some place)
    (held : item.instruction.operands[place]? = some (.offset value)) :
    item.destination? = some (opcode.flow.landing item.next value.toInt) := by
  have branches : opcode.flow.hasTarget = true := by
    rw [Opcode.branchOperand?_eq (Opcode.mem_of_ofCode? known)] at operand
    obtain ⟨width, has, _⟩ := Option.map_eq_some_iff.mp operand
    exact Option.isSome_iff_exists.mpr ⟨width, has⟩
  unfold destination?
  simp only [known, operand, held, Option.bind_eq_bind, Option.bind_some]
  unfold Flow.landing
  cases flow : opcode.flow with
  | conditional width => cases width <;> simp [Flow.isLong, Flow.width?, Flow.isBackward]
  | jump direction width =>
    cases direction <;> cases width <;> simp [Flow.isLong, Flow.width?, Flow.isBackward]
  | next => rw [flow] at branches; cases branches
  | call => rw [flow] at branches; cases branches
  | ret => rw [flow] at branches; cases branches

/-- **A decoded branch goes where its number leads.** -/
theorem Placed.destination?_eq {item : Placed} {opcode : Opcode} {body : List UInt8}
    {raw : Option Nat} (resolved : item.instruction.Resolved opcode body raw) :
    item.destination? = raw.map fun (raw : Nat) => opcode.flow.landing item.next raw := by
  have place := Opcode.branchOperand?_eq (Opcode.mem_of_ofCode? resolved.known)
  cases resolved with
  | plain known still _ =>
    rw [Flow.hasTarget_eq_false_iff.mp still] at place
    simp [destination?, known, place]
  | @branch width lead value raw known branches written operands same _ =>
    rw [branches] at place
    have held : item.instruction.operands[opcode.leading.length]? = some (.offset value) := by
      rw [operands, written.length_eq, List.getElem?_concat_length]
    rw [destination?_of_operand known place held, same, Option.map_some]

/-! ### What a branch can hold -/

namespace Layout

/-- Whether a branch with a given index can hold a destination. -/
def Reaches (sizes : List Nat) (index : Nat) (flow : Flow) (place : Nat) : Prop :=
  if flow.isLong then offsetAt sizes place < 65536
  else gap sizes index place < 256 ∧
    if flow.isBackward then place ≤ index + 1 else index + 1 ≤ place

/-- The number that a branch with a given index holds for its destination. -/
def held (sizes : List Nat) (index : Nat) (flow : Flow) (place : Nat) : Nat :=
  if flow.isLong then offsetAt sizes place else gap sizes index place

variable {sizes : List Nat} {index place : Nat} {flow : Flow} {width : BranchWidth}

theorem held_lt (branches : flow.width? = some width) (reaches : Reaches sizes index flow place) :
    held sizes index flow place < 256 ^ width.bytes := by
  unfold Reaches Flow.isLong at reaches
  unfold held Flow.isLong
  rw [branches] at reaches ⊢
  cases width with
  | short => exact reaches.1
  | long => exact reaches

/-- **A branch that can hold its destination leads there.** -/
theorem landing_held (reaches : Reaches sizes index flow place) :
    flow.landing (offsetAt sizes (index + 1)) (held sizes index flow place) =
      offsetAt sizes place := by
  unfold Reaches at reaches
  unfold held Flow.landing
  cases long : flow.isLong with
  | true => simp
  | false =>
    simp only [long, Bool.false_eq_true, if_false] at reaches ⊢
    cases backward : flow.isBackward with
    | true =>
      have before : place ≤ index + 1 := by simpa [backward] using reaches.2
      have ordered := offsetAt_le_offsetAt sizes before
      rw [if_pos rfl, gap, Nat.max_eq_left before, Nat.min_eq_right before]
      omega
    | false =>
      have behind : index + 1 ≤ place := by simpa [backward] using reaches.2
      have ordered := offsetAt_le_offsetAt sizes behind
      rw [if_neg Bool.false_ne_true, gap, Nat.max_eq_right behind, Nat.min_eq_left behind]
      omega

/-- **A branch that leads to a place can hold it**, if no instruction is empty. -/
theorem reaches_of_landing (positive : ∀ size ∈ sizes, 0 < size) (inside : index < sizes.length)
    (inside' : place ≤ sizes.length) (branches : flow.width? = some width) {raw : Nat}
    (small : raw < 256 ^ width.bytes)
    (lands : flow.landing (offsetAt sizes (index + 1)) raw = offsetAt sizes place) :
    Reaches sizes index flow place := by
  unfold Flow.landing at lands
  unfold Reaches
  cases width with
  | long =>
    have long : flow.isLong = true := by rw [Flow.isLong, branches]; rfl
    simp only [long, if_true] at lands ⊢
    simp only [BranchWidth.bytes] at small
    omega
  | short =>
    have short : flow.isLong = false := by rw [Flow.isLong, branches]; rfl
    simp only [short, Bool.false_eq_true, if_false] at lands ⊢
    simp only [BranchWidth.bytes] at small
    cases backward : flow.isBackward with
    | true =>
      simp only [backward, if_true] at lands ⊢
      have before : place ≤ index + 1 := by
        by_contra behind
        have := offsetAt_lt_offsetAt positive (Nat.lt_of_not_le behind) inside'
        omega
      rw [gap, Nat.max_eq_left before, Nat.min_eq_right before]
      exact ⟨by omega, before⟩
    | false =>
      simp only [backward, Bool.false_eq_true, if_false] at lands ⊢
      have behind : index + 1 ≤ place := by
        by_contra before
        have := offsetAt_lt_offsetAt positive (Nat.lt_of_not_le before) inside
        omega
      rw [gap, Nat.max_eq_right behind, Nat.min_eq_left behind]
      exact ⟨by omega, behind⟩

end Layout

end SceneScript
