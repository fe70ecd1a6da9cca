/-
**Decoded instructions tile the bytes.**

The decoder reads instructions one after the other. It accepts exactly the byte strings that are a
concatenation of written instructions (`Tiling`), and the place of each instruction is the sum of
the lengths before it.

* `decodeAll_eq_ok_iff`: decoding succeeds with the instructions that tile the bytes;
* `Tiling.placed_at`: where an instruction of a tiling starts and ends, and what its bytes are;
* `getElem?_boundaries`: the table of boundaries leads from a place to the index of the instruction
  that starts there, or to the end.
-/

import SceneScript.Disassembly
import SceneScript.Proofs.Codec
import SceneScript.Proofs.Offsets

namespace SceneScript

open Layout

/-- The number of bytes that a decoded instruction covers. -/
def Placed.size (placed : Placed) : Nat := placed.next - placed.offset

namespace Disassembly

/-- Decoded instructions that cover the bytes from `start` on, one right behind the other. -/
inductive Tiling : Nat → List Placed → List UInt8 → Prop
  | nil (start : Nat) : Tiling start [] []
  | cons {start : Nat} {instruction : Instruction} {own tail : List UInt8} {rest : List Placed} :
      instruction.encode = .ok own → Tiling (start + own.length) rest tail →
      Tiling start ({ offset := start, instruction, next := start + own.length } :: rest)
        (own ++ tail)

namespace Tiling

variable {start : Nat} {placed : List Placed} {bytes : List UInt8}

/-- Only the empty list tiles no bytes. -/
theorem eq_nil (tiling : Tiling start placed []) : placed = [] := by
  generalize none : ([] : List UInt8) = bytes at tiling
  cases tiling with
  | nil => rfl
  | cons encoded _ =>
    have own := Instruction.length_pos_of_encode encoded
    have total := congrArg List.length none
    rw [List.length_nil, List.length_append] at total
    omega

/-- The first instruction of a tiling is the one that is read at its start. -/
theorem exists_decode (tiling : Tiling start placed bytes) (more : bytes ≠ []) :
    ∃ instruction next rest,
      Instruction.decode { pos := start, rest := bytes } = .ok instruction next ∧
        placed = { offset := start, instruction := instruction, next := next.pos } :: rest ∧
        Tiling next.pos rest next.rest := by
  cases tiling with
  | nil => exact absurd rfl more
  | @cons _ instruction own tail rest encoded others =>
    refine ⟨instruction, { pos := start + own.length, rest := tail }, rest, ?_, rfl, others⟩
    exact (Instruction.parses_decode _ _ _).mpr ⟨own, encoded, rfl, rfl⟩

end Tiling

section Step

variable {done : List Placed} {cursor : Cursor}

theorem decodeFrom_of_read (more : ¬cursor.atEnd) {instruction : Instruction} {next : Cursor}
    (read : Instruction.decode cursor = .ok instruction next) :
    decodeFrom done cursor =
      decodeFrom ({ offset := cursor.pos, instruction := instruction, next := next.pos } :: done)
        next := by
  rw [decodeFrom, if_neg more]
  split
  · next read' =>
    rw [read] at read'
    cases read'
    rfl
  · next read' =>
    rw [read] at read'
    cases read'

theorem decodeFrom_of_refused (more : ¬cursor.atEnd) {cause : DecodeError} {stopped : Cursor}
    (read : Instruction.decode cursor = .error cause stopped) :
    decodeFrom done cursor = .error cause := by
  rw [decodeFrom, if_neg more]
  split
  · next read' =>
    rw [read] at read'
    cases read'
  · next read' =>
    rw [read] at read'
    cases read'
    rfl

end Step

theorem decodeFrom_eq_ok_iff {done placed : List Placed} {cursor : Cursor} :
    decodeFrom done cursor = .ok placed ↔
      ∃ rest, Tiling cursor.pos rest cursor.rest ∧ placed = done.reverse ++ rest := by
  induction done, cursor using decodeFrom.induct generalizing placed with
  | case1 done cursor ended =>
    have empty : cursor.rest = [] := List.isEmpty_iff.mp ended
    rw [decodeFrom, if_pos ended, empty]
    constructor
    · intro same
      cases same
      exact ⟨[], .nil _, (List.append_nil _).symm⟩
    · rintro ⟨rest, tiling, rfl⟩
      rw [tiling.eq_nil, List.append_nil]
  | case2 done cursor more instruction next read _ ih =>
    rw [decodeFrom_of_read more read, ih]
    constructor
    · rintro ⟨rest, tiling, rfl⟩
      obtain ⟨own, encoded, split, moved⟩ := (Instruction.parses_decode _ _ _).mp read
      rw [split, moved]
      rw [moved] at tiling
      exact ⟨_, .cons encoded tiling, by simp⟩
    · rintro ⟨rest, tiling, rfl⟩
      obtain ⟨first, behind, rest, read', rfl, others⟩ :=
        tiling.exists_decode (mt List.isEmpty_iff.mpr more)
      rw [read] at read'
      cases read'
      exact ⟨rest, others, by simp⟩
  | case3 done cursor more cause stopped read =>
    rw [decodeFrom_of_refused more read]
    constructor
    · intro impossible
      cases impossible
    · rintro ⟨rest, tiling, rfl⟩
      obtain ⟨first, behind, rest, read', _⟩ :=
        tiling.exists_decode (mt List.isEmpty_iff.mpr more)
      rw [read] at read'
      cases read'

/-- **Decoding succeeds with the instructions that tile the bytes.** -/
theorem decodeAll_eq_ok_iff {bytes : List UInt8} {placed : List Placed} :
    decodeAll bytes = .ok placed ↔ Tiling 0 placed bytes := by
  rw [decodeAll, decodeFrom_eq_ok_iff]
  constructor
  · rintro ⟨rest, tiling, rfl⟩
    exact tiling
  · exact fun tiling => ⟨placed, tiling, rfl⟩

/-- Bytes have at most one tiling. -/
theorem Tiling.unique {bytes : List UInt8} {placed placed' : List Placed}
    (tiling : Tiling 0 placed bytes) (tiling' : Tiling 0 placed' bytes) : placed = placed' := by
  have read := decodeAll_eq_ok_iff.mpr tiling
  rw [decodeAll_eq_ok_iff.mpr tiling'] at read
  cases read
  rfl

/-! ### Places in a tiling -/

namespace Tiling

variable {start : Nat} {placed : List Placed} {bytes : List UInt8} {index : Nat} {item : Placed}

/-- The lengths of the instructions add up to the bytes. -/
theorem sum_sizes (tiling : Tiling start placed bytes) :
    (placed.map Placed.size).sum = bytes.length := by
  induction tiling with
  | nil => rfl
  | cons _ _ ih =>
    rw [List.map_cons, List.sum_cons, ih, List.length_append, Placed.size, Nat.add_sub_cancel_left]

/-- **An instruction of a tiling starts behind the lengths before it**, and its bytes are those that
it covers. -/
theorem placed_at (tiling : Tiling start placed bytes) (found : placed[index]? = some item) :
    item.offset = start + offsetAt (placed.map Placed.size) index ∧
      item.next = item.offset + item.size ∧
      ∃ own, item.instruction.encode = .ok own ∧ own.length = item.size := by
  induction tiling generalizing index with
  | nil => cases found
  | @cons start instruction own tail rest encoded others ih =>
    cases index with
    | zero =>
      cases found
      refine ⟨rfl, ?_, own, encoded, ?_⟩ <;> simp [Placed.size]
    | succ index =>
      obtain ⟨place, next, written⟩ := ih found
      refine ⟨?_, next, written⟩
      rw [place, List.map_cons, offsetAt_cons, Placed.size, Nat.add_sub_cancel_left, Nat.add_assoc]

theorem getElem?_size (found : placed[index]? = some item) :
    (placed.map Placed.size)[index]? = some item.size := by
  rw [List.getElem?_map, found]
  rfl

theorem getElem?_instruction (found : placed[index]? = some item) :
    (placed.map Placed.instruction)[index]? = some item.instruction := by
  rw [List.getElem?_map, found]
  rfl

theorem next_eq (tiling : Tiling 0 placed bytes) (found : placed[index]? = some item) :
    item.next = offsetAt (placed.map Placed.size) (index + 1) := by
  obtain ⟨start, next, _⟩ := tiling.placed_at found
  rw [offsetAt_succ (getElem?_size found), next, start, Nat.zero_add]

theorem size_pos (tiling : Tiling start placed bytes) :
    ∀ size ∈ placed.map Placed.size, 0 < size := by
  intro size member
  obtain ⟨item, among, rfl⟩ := List.mem_map.mp member
  obtain ⟨index, found⟩ := List.mem_iff_getElem?.mp among
  obtain ⟨_, _, own, encoded, covered⟩ := tiling.placed_at found
  exact covered ▸ Instruction.length_pos_of_encode encoded

/-- The places of a tiling from the start of the bytes are those of a layout with its lengths. -/
theorem offsets_eq (tiling : Tiling 0 placed bytes) :
    placed.map Placed.offset ++ [bytes.length] =
      (startOffsets (placed.map Placed.size)).toList := by
  rw [startOffsets_toList, List.length_map, List.range_succ, List.map_append, ← tiling.sum_sizes]
  congr 1
  · refine List.ext_getElem (by simp) fun index inside inside' => ?_
    rw [List.length_map] at inside
    simpa using (tiling.placed_at (List.getElem?_eq_getElem inside)).1
  · rw [← offsetAt_length, List.length_map]
    rfl

/-- Written instructions, one right behind the other, have a tiling. -/
theorem exists_of_written (start : Nat) {written : List (Instruction × List UInt8)}
    (encoded : ∀ one ∈ written, one.1.encode = .ok one.2) :
    ∃ placed, Tiling start placed (written.flatMap Prod.snd) ∧
      placed.map Placed.instruction = written.map Prod.fst ∧
      placed.map Placed.size = written.map fun one => one.2.length := by
  induction written generalizing start with
  | nil => exact ⟨[], .nil start, rfl, rfl⟩
  | cons one written ih =>
    obtain ⟨rest, tiling, instructions, sizes⟩ :=
      ih (start + one.2.length) fun other among => encoded other (List.mem_cons_of_mem _ among)
    refine ⟨_, .cons (encoded one List.mem_cons_self) tiling, ?_, ?_⟩
    · rw [List.map_cons, List.map_cons, instructions]
    · rw [List.map_cons, List.map_cons, sizes, Placed.size, Nat.add_sub_cancel_left]

end Tiling

/-! ### Boundaries -/

/-- A table of different numbers leads from each of them to its place in the list. -/
theorem getElem?_ofList_zipIdx {numbers : List Nat} (distinct : numbers.Nodup)
    {number place : Nat} :
    (Std.HashMap.ofList numbers.zipIdx)[number]? = some place ↔ numbers[place]? = some number := by
  have apart : numbers.zipIdx.Pairwise fun first second => (first.1 == second.1) = false := by
    have keys : (numbers.zipIdx.map Prod.fst).Nodup := by rwa [List.zipIdx_map_fst]
    exact (List.pairwise_map.mp keys).imp fun different => beq_false_of_ne different
  constructor
  · intro listed
    by_cases among : number ∈ numbers
    · obtain ⟨own, found⟩ := List.mem_iff_getElem?.mp among
      have entry : (number, own) ∈ numbers.zipIdx := List.mem_zipIdx_iff_getElem?.mpr found
      rw [Std.HashMap.getElem?_ofList_of_mem (BEq.refl number) apart entry] at listed
      cases listed
      exact found
    · rw [Std.HashMap.getElem?_ofList_of_contains_eq_false (by simpa using among)] at listed
      cases listed
  · intro found
    have entry : (number, place) ∈ numbers.zipIdx := List.mem_zipIdx_iff_getElem?.mpr found
    exact Std.HashMap.getElem?_ofList_of_mem (BEq.refl number) apart entry

/-- **The table of boundaries** leads from the place of an instruction, or the end, to its index. -/
theorem getElem?_boundaries {placed : List Placed} {bytes : List UInt8}
    (tiling : Tiling 0 placed bytes) {place index : Nat} :
    (boundaries placed bytes.length)[place]? = some index ↔
      index ≤ placed.length ∧ offsetAt (placed.map Placed.size) index = place := by
  have listed : ∀ index, (placed.map Placed.offset ++ [bytes.length])[index]? = some place ↔
      index ≤ placed.length ∧ offsetAt (placed.map Placed.size) index = place := by
    intro index
    rw [tiling.offsets_eq, startOffsets_toList, List.getElem?_map, Option.map_eq_some_iff]
    simp only [List.getElem?_eq_some_iff, List.length_range, List.getElem_range, List.length_map,
      Nat.lt_succ_iff, exists_prop, and_assoc, exists_and_left, exists_eq_left']
  have distinct : (placed.map Placed.offset ++ [bytes.length]).Nodup := by
    rw [tiling.offsets_eq, startOffsets_toList]
    refine List.Nodup.map_on (fun first among last among' same => ?_) List.nodup_range
    rw [List.mem_range, Nat.lt_succ_iff] at among among'
    exact offsetAt_inj tiling.size_pos among among' same
  rw [boundaries, getElem?_ofList_zipIdx distinct, listed]

end Disassembly

end SceneScript
