/-
**Where disassembly fails, and why.**

Bytes that are not a script are refused for one of two reasons. Either an instruction cannot be read
(`Breaks`): all before it is complete, and reading it alone gives the same error. Or all of them can
be read, and a branch leads astray (`Strays`): the error names the first such branch and where it
leads. A script that is announced longer than its bytes breaks at their end.

* `offset_of_decode`: an instruction that cannot be read is refused at the place where it starts;
* `decodeFrom_of_tiling`: reading passes over complete instructions;
* `decodeAll_eq_error_iff`: reading fails at the first instruction that cannot be read;
* `targetIndex_eq_error_iff`: a branch is refused if it leads to no boundary;
* `disassemble_eq_error_iff`, `disassembleFirst_eq_error_iff`: disassembly fails with an error
  exactly if the error says what is wrong first.
-/

import SceneScript.Proofs.Format

namespace SceneScript

open Layout Disassembly

namespace DecodeError

/-- The place that an error names. -/
def offset : DecodeError → Nat
  | unknownOpcode offset _ => offset
  | truncatedInstruction offset => offset
  | misalignedTarget offset _ => offset
  | malformedOperand offset _ => offset

/-- Whether an error is about a branch that leads to no instruction. -/
def isMisaligned : DecodeError → Bool
  | misalignedTarget _ _ => true
  | _ => false

end DecodeError

/-- The bytes before the place that an error names are complete instructions, and the instruction
at that place cannot be read, for the reason that the error gives. -/
structure Breaks (view : List UInt8) (cause : DecodeError) : Prop where
  inside : cause.offset ≤ view.length
  complete : ∃ (code : List Instruction) (parts : List (List UInt8)),
    List.Forall₂ (fun instruction part => instruction.encode = .ok part) code parts ∧
      view.take cause.offset = parts.flatten
  refused : ∃ stopped,
    Instruction.decode { pos := cause.offset, rest := view.drop cause.offset } =
      .error cause stopped

/-- The instruction with a given index leads to the start of an instruction or to the end, if it is
a branch. -/
def AlignedAt (code : List Instruction) (parts : List (List UInt8)) (index : Nat) : Prop :=
  ∀ instruction, code[index]? = some instruction →
    ∀ destination, instruction.BranchesTo (startOf parts (index + 1)) destination →
      ∃ place ≤ code.length, destination = startOf parts place

/-- The bytes are complete instructions, and that with a given index is the first branch that does
not lead to the start of one of them or to the end: it stands at `offset` and leads to `target`. -/
structure Strays (view : List UInt8) (offset : Nat) (target : Int) (code : List Instruction)
    (parts : List (List UInt8)) (index : Nat) : Prop where
  encoded : List.Forall₂ (fun instruction part => instruction.encode = .ok part) code parts
  joined : view = parts.flatten
  place : offset = startOf parts index
  leads : ∃ instruction, code[index]? = some instruction ∧
    instruction.BranchesTo (startOf parts (index + 1)) target
  astray : ∀ place ≤ code.length, target ≠ startOf parts place
  first : ∀ earlier < index, AlignedAt code parts earlier

/-! ### Reading one instruction -/

namespace Reader

variable {ε ε' α β : Type} {cursor stopped : Cursor}

theorem bind_eq_error_iff {first : Reader ε α} {second : α → Reader ε β} {cause : ε} :
    (first >>= second) cursor = .error cause stopped ↔
      first cursor = .error cause stopped ∨
        ∃ value middle, first cursor = .ok value middle ∧
          second value middle = .error cause stopped := by
  simp only [Bind.bind, EStateM.bind]
  cases first cursor with
  | ok value middle =>
    refine ⟨fun failed => .inr ⟨value, middle, rfl, failed⟩, ?_⟩
    rintro (impossible | ⟨_, _, same, failed⟩)
    · cases impossible
    · cases same
      exact failed
  | error own after => simp

theorem adapt_eq_error {reader : Reader ε α} {f : ε → ε'} {cause : ε'}
    (failed : EStateM.adaptExcept f reader cursor = .error cause stopped) :
    ∃ own, cause = f own := by
  unfold EStateM.adaptExcept at failed
  split at failed
  · cases failed
    exact ⟨_, rfl⟩
  · cases failed

end Reader

namespace Instruction

variable {cursor stopped : Cursor} {cause : DecodeError}

theorem offset_decodeError (offset : Nat) (cause : OperandError) :
    (decodeError offset cause).offset = offset ∧
      (decodeError offset cause).isMisaligned = false := by
  cases cause <;> exact ⟨rfl, rfl⟩

theorem offset_of_decodeOperands {offset : Nat} {code : UInt8}
    (failed : decodeOperands offset code cursor = .error cause stopped) :
    cause.offset = offset ∧ cause.isMisaligned = false := by
  unfold decodeOperands at failed
  cases known : Opcode.ofCode? code with
  | none =>
    rw [known] at failed
    cases failed
    exact ⟨rfl, rfl⟩
  | some opcode =>
    rw [known] at failed
    rcases Reader.bind_eq_error_iff.mp failed with refused | ⟨_, _, _, impossible⟩
    · obtain ⟨own, rfl⟩ := Reader.adapt_eq_error refused
      exact offset_decodeError offset own
    · cases impossible

/-- **An instruction that cannot be read is refused at the place where it starts.** -/
theorem offset_of_decode (failed : decode cursor = .error cause stopped) :
    cause.offset = cursor.pos ∧ cause.isMisaligned = false := by
  have run : (EStateM.adaptExcept (decodeError cursor.pos) (Reader.word 1) >>= fun code =>
      decodeOperands cursor.pos code.toUInt8) cursor = .error cause stopped := failed
  rcases Reader.bind_eq_error_iff.mp run with refused | ⟨code, middle, _, refused⟩
  · obtain ⟨own, rfl⟩ := Reader.adapt_eq_error refused
    exact offset_decodeError cursor.pos own
  · exact offset_of_decodeOperands refused

/-- Where there are no bytes, an instruction is cut short. -/
theorem decode_nil (start : Nat) :
    decode { pos := start, rest := [] } =
      .error (.truncatedInstruction start) { pos := start, rest := [] } :=
  rfl

end Instruction

/-- An instruction that cannot be read is not refused for where it leads. -/
theorem Breaks.isMisaligned_eq {view : List UInt8} {cause : DecodeError}
    (breaks : Breaks view cause) : cause.isMisaligned = false := by
  obtain ⟨stopped, refused⟩ := breaks.refused
  exact (Instruction.offset_of_decode refused).2

namespace Disassembly

/-! ### Reading all instructions -/

/-- **Reading passes over complete instructions.** -/
theorem decodeFrom_of_tiling {start : Nat} {placed : List Placed} {front : List UInt8}
    (tiling : Tiling start placed front) (done : List Placed) (back : List UInt8) :
    decodeFrom done { pos := start, rest := front ++ back } =
      decodeFrom (placed.reverse ++ done) { pos := start + front.length, rest := back } := by
  induction tiling generalizing done with
  | nil => rfl
  | @cons start instruction own tail rest encoded _ ih =>
    have read : Instruction.decode { pos := start, rest := (own ++ tail) ++ back } =
        .ok instruction { pos := start + own.length, rest := tail ++ back } :=
      (Instruction.parses_decode _ _ _).mpr ⟨own, encoded, by simp, rfl⟩
    have more : ¬Cursor.atEnd { pos := start, rest := (own ++ tail) ++ back } := by
      have filled := Instruction.length_pos_of_encode encoded
      simp [Cursor.atEnd, List.ne_nil_of_length_pos filled]
    rw [decodeFrom_of_read more read, ih, List.reverse_cons, List.append_cons, List.length_append,
      Nat.add_assoc]

theorem decodeFrom_eq_error {done : List Placed} {cursor : Cursor} {cause : DecodeError}
    (failed : decodeFrom done cursor = .error cause) :
    ∃ front back placed stopped, cursor.rest = front ++ back ∧ back ≠ [] ∧
      Tiling cursor.pos placed front ∧
      Instruction.decode { pos := cursor.pos + front.length, rest := back } =
        .error cause stopped := by
  induction done, cursor using decodeFrom.induct with
  | case1 done cursor ended =>
    rw [decodeFrom, if_pos ended] at failed
    cases failed
  | case2 done cursor more instruction next read _ ih =>
    rw [decodeFrom_of_read more read] at failed
    obtain ⟨front, back, placed, stopped, split, filled, tiling, refused⟩ := ih failed
    obtain ⟨own, encoded, taken, moved⟩ := (Instruction.parses_decode _ _ _).mp read
    rw [moved] at tiling refused
    refine ⟨own ++ front, back, _, stopped, ?_, filled, .cons encoded tiling, ?_⟩
    · rw [taken, split, List.append_assoc]
    · rwa [List.length_append, ← Nat.add_assoc]
  | case3 done cursor more own stopped read =>
    rw [decodeFrom_of_refused more read] at failed
    cases failed
    refine ⟨[], cursor.rest, [], stopped, rfl, mt List.isEmpty_iff.mpr more, .nil _, ?_⟩
    exact read

/-- **Reading fails at the first instruction that cannot be read.** -/
theorem decodeAll_eq_error_iff {bytes : List UInt8} {cause : DecodeError} :
    decodeAll bytes = .error cause ↔ cause.offset < bytes.length ∧ Breaks bytes cause := by
  constructor
  · intro failed
    obtain ⟨front, back, placed, stopped, split, filled, tiling, refused⟩ :=
      decodeFrom_eq_error failed
    have split : bytes = front ++ back := split
    have start : cause.offset = front.length := by
      rw [(Instruction.offset_of_decode refused).1]
      exact Nat.zero_add _
    have behind := List.length_pos_of_ne_nil filled
    obtain ⟨parts, encoded, joined, _⟩ := tiling.exists_parts
    rw [split, List.length_append, start]
    refine ⟨by omega, ?_, ⟨_, parts, encoded, ?_⟩, stopped, ?_⟩
    · rw [start, List.length_append]
      omega
    · rw [start, List.take_left, joined]
    · rw [start, List.drop_left, ← refused, Cursor.ofBytes, Nat.zero_add]
  · rintro ⟨inside, _, ⟨code, parts, encoded, joined⟩, stopped, refused⟩
    obtain ⟨placed, tiling, _⟩ := Tiling.exists_of_parts 0 encoded
    have more : ¬Cursor.atEnd { pos := cause.offset, rest := bytes.drop cause.offset } := by
      simpa [Cursor.atEnd] using inside
    have passed := decodeFrom_of_tiling tiling [] (bytes.drop cause.offset)
    have count : parts.flatten.length = cause.offset := by
      rw [← joined, List.length_take, Nat.min_eq_left inside.le]
    rw [← joined, List.take_append_drop, joined, count, Nat.zero_add] at passed
    exact passed.trans (decodeFrom_of_refused more refused)

/-! ### Branches that lead astray -/

variable {placed : List Placed} {bytes : List UInt8} {parts : List (List UInt8)}
  {cause : DecodeError}

/-- **A branch is refused if it leads to no boundary.** -/
theorem targetIndex_eq_error_iff (tiling : Tiling 0 placed bytes) {item : Placed} :
    targetIndex (boundaries placed bytes.length) item = .error cause ↔
      ∃ target, cause = .misalignedTarget item.offset target ∧
        item.instruction.BranchesTo item.next target ∧
        ∀ place ≤ placed.length, target ≠ offsetAt (placed.map Placed.size) place := by
  simp only [← Placed.destination?_eq_some_iff]
  unfold targetIndex
  cases item.destination? with
  | none => simp
  | some destination =>
    have located := fun place : Nat => @boundary_eq_some_iff _ _ tiling destination place
    simp only [Option.some.injEq]
    generalize destination.toNat?.bind ((boundaries placed bytes.length)[·]?) = start at located ⊢
    cases start with
    | none =>
      constructor
      · intro failed
        cases failed
        refine ⟨destination, rfl, rfl, fun place inside same => ?_⟩
        cases (located place).mpr ⟨same, inside⟩
      · rintro ⟨_, rfl, rfl, _⟩
        rfl
    | some place =>
      obtain ⟨same, inside⟩ := (located place).mp rfl
      refine iff_of_false (fun impossible => ?_) ?_
      · cases impossible
      · rintro ⟨_, _, rfl, astray⟩
        exact astray place inside same

/-- An instruction leads to a boundary, or is no branch, if it has a target index. -/
theorem alignedAt_iff (tiling : Tiling 0 placed bytes)
    (sizes : placed.map Placed.size = parts.map List.length) {index : Nat} {item : Placed}
    (found : placed[index]? = some item) :
    AlignedAt (placed.map Placed.instruction) parts index ↔
      ∃ target, targetIndex (boundaries placed bytes.length) item = .ok target := by
  simp only [targetIndex_eq_ok_iff tiling, exists_landsAt_iff, AlignedAt,
    Tiling.getElem?_instruction found, Option.some.injEq, forall_eq', startOf_eq, ← sizes,
    tiling.next_eq found, List.length_map]

/-- **The branch that is refused is the first that leads astray.** -/
theorem mapM_targetIndex_eq_error_iff (tiling : Tiling 0 placed bytes)
    (encoded : List.Forall₂ (fun instruction part => instruction.encode = .ok part)
      (placed.map Placed.instruction) parts)
    (joined : bytes = parts.flatten) (sizes : placed.map Placed.size = parts.map List.length) :
    placed.mapM (targetIndex (boundaries placed bytes.length)) = .error cause ↔
      ∃ offset target index, cause = .misalignedTarget offset target ∧
        Strays bytes offset target (placed.map Placed.instruction) parts index := by
  rw [Traversal.mapM_eq_error_iff]
  constructor
  · rintro ⟨index, item, found, failed, before⟩
    obtain ⟨target, rfl, leads, astray⟩ := (targetIndex_eq_error_iff tiling).mp failed
    refine ⟨item.offset, target, index, rfl, encoded, joined, ?_,
      ⟨item.instruction, Tiling.getElem?_instruction found, ?_⟩, fun place inside => ?_,
      fun earlier early => ?_⟩
    · rw [(tiling.placed_at found).1, Nat.zero_add, startOf_eq, sizes]
    · rwa [startOf_eq, ← sizes, ← tiling.next_eq found]
    · rw [startOf_eq, ← sizes]
      exact astray place (by simpa using inside)
    · have inside : earlier < placed.length := by
        have := (List.getElem?_eq_some_iff.mp found).1
        omega
      have listed := List.getElem?_eq_getElem inside
      exact (alignedAt_iff tiling sizes listed).mpr (before earlier early _ listed)
  · rintro ⟨offset, target, index, rfl, strays⟩
    obtain ⟨instruction, listed, leads⟩ := strays.leads
    rw [List.getElem?_map] at listed
    obtain ⟨item, found, rfl⟩ := Option.map_eq_some_iff.mp listed
    refine ⟨index, item, found, (targetIndex_eq_error_iff tiling).mpr ⟨target, ?_, ?_, ?_⟩, ?_⟩
    · rw [(tiling.placed_at found).1, Nat.zero_add, strays.place, startOf_eq, sizes]
    · rwa [tiling.next_eq found, sizes, ← startOf_eq]
    · intro place inside
      rw [sizes, ← startOf_eq]
      exact strays.astray place (by simpa using inside)
    · intro earlier early other located
      exact (alignedAt_iff tiling sizes located).mp (strays.first earlier early)

end Disassembly

/-! ### Disassembly -/

namespace Script

variable {id : UInt8} {bytes : List UInt8} {cause : DecodeError}

/-- **Bytes are refused** if an instruction cannot be read, or else if a branch leads astray. -/
theorem disassemble_eq_error_iff :
    disassemble id bytes = .error cause ↔
      (cause.offset < bytes.length ∧ Breaks bytes cause) ∨
        ∃ offset target, cause = .misalignedTarget offset target ∧
          ∃ code parts index, Strays bytes offset target code parts index := by
  unfold disassemble
  rw [Traversal.bind_eq_error_iff, decodeAll_eq_error_iff]
  refine or_congr_right ⟨?_, ?_⟩
  · rintro ⟨placed, read, failed⟩
    have tiling := decodeAll_eq_ok_iff.mp read
    obtain ⟨parts, encoded, joined, sizes⟩ := tiling.exists_parts
    rcases Traversal.bind_eq_error_iff.mp failed with refused | ⟨_, _, impossible⟩
    · obtain ⟨offset, target, index, same, strays⟩ :=
        (mapM_targetIndex_eq_error_iff tiling encoded joined sizes).mp refused
      exact ⟨offset, target, same, _, parts, index, strays⟩
    · cases impossible
  · rintro ⟨offset, target, same, code, parts, index, strays⟩
    obtain ⟨placed, tiling, rfl, sizes⟩ := Tiling.exists_of_parts 0 strays.encoded
    rw [← strays.joined] at tiling
    refine ⟨placed, decodeAll_eq_ok_iff.mpr tiling, Traversal.bind_eq_error_iff.mpr (.inl ?_)⟩
    exact (mapM_targetIndex_eq_error_iff tiling strays.encoded strays.joined sizes).mpr
      ⟨offset, target, index, same, strays⟩

/-- **A script that is announced longer than its bytes** is refused where they break, at the latest
at their end. -/
theorem disassembleFirst_eq_error_iff_of_lt {length : Nat} (short : bytes.length < length) :
    disassembleFirst id bytes length = .error cause ↔ Breaks bytes cause := by
  rw [disassembleFirst_of_lt short, Traversal.bind_eq_error_iff, decodeAll_eq_error_iff]
  constructor
  · rintro (⟨_, breaks⟩ | ⟨placed, read, same⟩)
    · exact breaks
    · cases same
      obtain ⟨parts, encoded, joined, _⟩ := (decodeAll_eq_ok_iff.mp read).exists_parts
      refine ⟨le_rfl, ⟨_, parts, encoded, ?_⟩, { pos := bytes.length, rest := [] }, ?_⟩
      · rw [DecodeError.offset, List.take_length, joined]
      · rw [DecodeError.offset, List.drop_length, Instruction.decode_nil]
  · intro breaks
    rcases breaks.inside.lt_or_eq with inside | ends
    · exact .inl ⟨inside, breaks⟩
    · obtain ⟨code, parts, encoded, joined⟩ := breaks.complete
      obtain ⟨stopped, refused⟩ := breaks.refused
      obtain ⟨placed, tiling, _⟩ := Tiling.exists_of_parts 0 encoded
      rw [ends, List.take_length] at joined
      rw [ends, List.drop_length, Instruction.decode_nil] at refused
      rw [← joined] at tiling
      cases refused
      exact .inr ⟨placed, decodeAll_eq_ok_iff.mpr tiling, rfl⟩

/-- **Where the first `length` bytes are refused, and why.** Either an instruction cannot be read:
those before it are complete, it starts within the announced length, and reading it alone gives the
error. Or the bytes are all there and can be read, and the error names the first branch that leads
to no instruction and not to the end, and where it leads. -/
theorem disassembleFirst_eq_error_iff (id : UInt8) (bytes : List UInt8) (length : Nat)
    (cause : DecodeError) :
    disassembleFirst id bytes length = .error cause ↔
      (cause.isMisaligned = false ∧ cause.offset < length ∧ Breaks (bytes.take length) cause) ∨
        ∃ offset target, cause = .misalignedTarget offset target ∧ length ≤ bytes.length ∧
          ∃ code parts index, Strays (bytes.take length) offset target code parts index := by
  by_cases enough : length ≤ bytes.length
  · have count : (bytes.take length).length = length := by
      rw [List.length_take, Nat.min_eq_left enough]
    rw [disassembleFirst_of_le enough, disassemble_eq_error_iff, count]
    simp only [enough, true_and]
    exact or_congr_left ⟨fun both => ⟨both.2.isMisaligned_eq, both⟩, And.right⟩
  · have short := Nat.lt_of_not_le enough
    rw [disassembleFirst_eq_error_iff_of_lt short, List.take_of_length_le short.le]
    simp only [enough, false_and, and_false, exists_false, or_false]
    exact ⟨fun breaks => ⟨breaks.isMisaligned_eq, breaks.inside.trans_lt short, breaks⟩,
      fun all => all.2.2⟩

end Script

end SceneScript
