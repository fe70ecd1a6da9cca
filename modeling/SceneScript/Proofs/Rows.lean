/-
**Rows say where instructions stand.**

The rows of a listing are made one after the other, and each starts where the lengths before it end.
The lengths are those that the instructions of the script announce, with labels in the place of
destinations. For a script that was read from bytes they are the lengths that the decoder met.

* `rows_eq_measured`: the rows, with the offset behind the last of them (`measured`);
* `addRow_of_size`, `foldlM_addRow`: one more row, and all rows, of instructions that announce a
  length;
* `Tiling.readAt`: a decoded instruction is read at its own place;
* `size?_of_disassemble`: the instructions of a disassembled script announce the lengths that the
  decoder met;
* `render_json`, `dis_json`: the rows are what the command prints;
* `measured_of_disassemble`: the offsets of the rows are the places where the instructions were
  read, and the last row ends with the bytes.
-/

import SceneScript.Command
import SceneScript.Proofs.Printing
import SceneScript.Proofs.Validation

namespace SceneScript

open Layout Disassembly

namespace Listing

/-! ### Rows -/

/-- The rows of a listing, and the offset behind the last of them. -/
def measured (script : Script) : Except Nat (List Row × Nat) :=
  (script.instructions.zipIdx.foldlM (addRow script script.labelTable) ([], 0)).map
    fun state => (state.1.reverse, state.2)

/-- The row of an instruction that stands at `offset`. -/
def rowAt (script : Script) (offset : Nat) (item : Instruction × Nat) : Row where
  offset
  labels := (script.labelsAt item.2).map Label.name
  text := instructionText script item.1

/-- The rows of instructions of given lengths. -/
def rowsOf (script : Script) (sizes : List Nat) (instructions : List Instruction) : List Row :=
  instructions.zipIdx.map fun item => rowAt script (offsetAt sizes item.2) item

theorem rows_eq_measured (script : Script) : rows script = (measured script).map Prod.fst := by
  rw [rows, measured]
  cases script.instructions.zipIdx.foldlM (addRow script script.labelTable) ([], 0) <;> rfl

variable {script : Script} {instructions : List Instruction} {sizes : List Nat}

/-- **An instruction that announces a length gets a row**, and the next one starts behind it. -/
theorem addRow_of_size {instruction : Instruction} {index size : Nat}
    (announced : instruction.size? = some size) (inside : index ≤ script.size)
    (done : List Row) (offset : Nat) :
    addRow script script.labelTable (done, offset) (instruction, index) =
      .ok (rowAt script offset (instruction, index) :: done, offset + size) := by
  have labels : script.labelTable.getD index [] = script.labelsAt index := by
    rw [Array.getD_eq_getD_getElem?, script.getElem?_labelTable inside, Option.getD_some]
  simp only [addRow, row, announced, labels]
  rfl

/-- **Instructions that announce their lengths get a row each.** -/
theorem foldlM_addRow
    (announced : List.Forall₂ (fun instruction size => instruction.size? = some size)
      instructions sizes) (inside : instructions.length ≤ script.size) :
    instructions.zipIdx.foldlM (addRow script script.labelTable) ([], 0) =
      .ok ((rowsOf script sizes instructions).reverse, sizes.sum) := by
  induction instructions using List.reverseRecOn generalizing sizes with
  | nil =>
    rw [List.forall₂_nil_left_iff.mp announced]
    rfl
  | append_singleton instructions last ih =>
    obtain ⟨sizes, size, rfl, before, own⟩ := Traversal.forall₂_concat_left_iff.mp announced
    rw [List.length_append, List.length_singleton] at inside
    have earlier := ih before (by omega)
    -- The rows before the last one do not look at its length.
    have kept :
        rowsOf script (sizes ++ [size]) instructions = rowsOf script sizes instructions := by
      refine List.map_congr_left fun item among => ?_
      have below : item.2 ≤ sizes.length := by
        rw [← before.length_eq]
        exact (List.snd_lt_of_mem_zipIdx among).le
      rw [offsetAt, List.take_append_of_le_length below, ← offsetAt]
    have place : offsetAt (sizes ++ [size]) instructions.length = sizes.sum := by
      rw [offsetAt, before.length_eq, List.take_left]
    have rows : rowsOf script (sizes ++ [size]) (instructions ++ [last]) =
        rowsOf script sizes instructions ++
          [rowAt script sizes.sum (last, instructions.length)] := by
      rw [rowsOf, List.zipIdx_append, List.map_append, ← rowsOf, kept]
      simp [place]
    rw [List.zipIdx_append, List.foldlM_append, earlier, List.zipIdx_singleton, Nat.zero_add, rows,
      List.reverse_concat, List.sum_append, List.sum_singleton]
    show (addRow script script.labelTable _ (last, instructions.length) >>= pure) = _
    rw [addRow_of_size own (by omega)]
    rfl

/-- The rows of a script whose instructions announce their lengths, and where they end. -/
theorem measured_of_sizes
    (announced : List.Forall₂ (fun instruction size => instruction.size? = some size)
      script.instructions sizes) :
    measured script = .ok (rowsOf script sizes script.instructions, sizes.sum) := by
  rw [measured, foldlM_addRow announced le_rfl, Except.map, List.reverse_reverse]

theorem rows_of_sizes
    (announced : List.Forall₂ (fun instruction size => instruction.size? = some size)
      script.instructions sizes) :
    rows script = .ok (rowsOf script sizes script.instructions) := by
  rw [rows_eq_measured, measured_of_sizes announced, Except.map]

theorem map_offset_rowsOf (script : Script) (sizes : List Nat) (instructions : List Instruction) :
    (rowsOf script sizes instructions).map Row.offset =
      (List.range instructions.length).map (offsetAt sizes) := by
  rw [rowsOf, List.map_map, List.range_eq_range', ← List.zipIdx_map_snd, List.map_map]
  rfl

end Listing

/-! ### Places where instructions are read -/

/-- An instruction is read from the bytes at the place where it stands, up to where it ends. -/
def Placed.ReadFrom (item : Placed) (bytes : List UInt8) : Prop :=
  Instruction.decode { pos := item.offset, rest := bytes.drop item.offset } =
    .ok item.instruction { pos := item.next, rest := bytes.drop item.next }

/-- **A decoded instruction is read at its own place.** -/
theorem Disassembly.Tiling.readAt {start : Nat} {placed : List Placed} {tail : List UInt8}
    (tiling : Tiling start placed tail) {bytes : List UInt8} (behind : bytes.drop start = tail) :
    ∀ item ∈ placed, item.ReadFrom bytes := by
  induction tiling with
  | nil => exact List.forall_mem_nil _
  | @cons start instruction own tail rest encoded others ih =>
    have next : bytes.drop (start + own.length) = tail := by
      rw [← List.drop_drop, behind, List.drop_left]
    refine List.forall_mem_cons.mpr ⟨?_, ih next⟩
    rw [Placed.ReadFrom, behind, next]
    exact (Instruction.parses_decode _ _ _).mpr ⟨own, encoded, rfl, rfl⟩

/-- **The instructions of a disassembled script announce the lengths that the decoder met**, with
labels in the place of destinations. -/
theorem Script.size?_of_disassemble {id : UInt8} {bytes : List UInt8} {script : Script}
    (accepted : disassemble id bytes = .ok script) {placed : List Placed}
    (tiling : Tiling 0 placed bytes) :
    List.Forall₂ (fun instruction size => instruction.size? = some size) script.instructions
      (placed.map Placed.size) := by
  refine Traversal.forall₂_iff_getElem?.mpr ⟨?_, fun index instruction size listed sized => ?_⟩
  · rw [List.length_map, ← size_of_disassemble accepted tiling, Script.size]
  · obtain ⟨_, _, _, _, _, denotes, _, _, fits⟩ :=
      exists_placed_of_disassemble accepted tiling listed
    rw [denotes.size?_eq, ← fits.sized, sized]

/-! ### The command -/

namespace Command

/-- Rows as the tool prints them. -/
def rowsText (rows : List Listing.Row) : String := (Json.array (rows.map rowJson)).pretty ++ "\n"

theorem render_json {script : Script} {rows : List Listing.Row}
    (listed : Listing.rows script = .ok rows) : render .json script = .ok (rowsText rows) := by
  simp only [render, listed]
  rfl

/-- The rows of a script are what `dis` prints. -/
theorem dis_json {input : File} {window : Window} {bytes : List UInt8} {script : Script}
    {rows : List Listing.Row} (given : input.blob window = .ok bytes)
    (accepted : Script.disassemble 0 bytes = .ok script) (listed : Listing.rows script = .ok rows) :
    dis input window .json false = { output := rowsText rows } := by
  have read : decode bytes = .ok script := by
    rw [decode, accepted]
    rfl
  have run : (do
      let script ← decode (← input.blob window)
      render .json script) = .ok (rowsText rows) :=
    Traversal.bind_eq_ok_iff.mpr ⟨bytes, given,
      Traversal.bind_eq_ok_iff.mpr ⟨script, read, render_json listed⟩⟩
  simp only [dis, run]
  rfl

end Command

namespace Listing

/-- **The rows say where the instructions were read.** If bytes are disassembled, the listing of the
script has rows, and none of its instructions is without a length. The offsets of the rows, which
are sums of the lengths that the instructions announce, are the places at which the decoder read
these instructions, and the sum of all lengths is the number of bytes. -/
theorem measured_of_disassemble {id : UInt8} {bytes : List UInt8} {script : Script}
    (accepted : Script.disassemble id bytes = .ok script) :
    ∃ placed made, decodeAll bytes = .ok placed ∧ (∀ item ∈ placed, item.ReadFrom bytes) ∧
      script.instructions.map Instruction.size? = (placed.map Placed.size).map some ∧
      measured script = .ok (made, bytes.length) ∧ rows script = .ok made ∧
      Command.render .json script = .ok (Command.rowsText made) ∧
      made.map Row.offset = placed.map Placed.offset := by
  obtain ⟨placed, tiling⟩ := Script.exists_tiling accepted
  have announced := Script.size?_of_disassemble accepted tiling
  have total := measured_of_sizes announced
  have listed := rows_of_sizes announced
  rw [tiling.sum_sizes] at total
  refine ⟨placed, _, decodeAll_eq_ok_iff.mpr tiling, tiling.readAt rfl, ?_, total, listed,
    Command.render_json listed, ?_⟩
  · rw [← List.forall₂_eq_eq_eq, List.forall₂_map_left_iff, List.forall₂_map_right_iff]
    exact announced
  · have places := congrArg List.dropLast tiling.offsets_eq
    rw [startOffsets_toList, List.range_succ, List.map_append, List.map_singleton,
      List.dropLast_concat, List.dropLast_concat, ← announced.length_eq] at places
    rw [map_offset_rowsOf, places]

/-- A payload, a short jump back to it and a long jump to the end. -/
def rondo : Script where
  id := 0
  instructions := [{ opcode := 0x28, operands := [.bytes [0x0A, 0x01]] },
    { opcode := 0x12, operands := [.label 0] }, { opcode := 0x11, operands := [.label 1] }]
  labels := #[{ id := 0, name := "label_1", position := some 0 },
    { id := 1, name := "label_2", position := some 3 }]

/-- The bytes of `rondo`. -/
def rondoBytes : List UInt8 := [0x28, 4, 0x0A, 0x01, 0x12, 6, 0x11, 9, 0]

/-- The instructions of `rondo` as they are decoded. -/
def rondoPlaced : List Placed :=
  [{ offset := 0, instruction := { opcode := 0x28, operands := [.bytes [0x0A, 0x01]] }, next := 4 },
    { offset := 4, instruction := { opcode := 0x12, operands := [.offset 6] }, next := 6 },
    { offset := 6, instruction := { opcode := 0x11, operands := [.offset 9] }, next := 9 }]

theorem tiling_rondo : Tiling 0 rondoPlaced rondoBytes := by
  have block : Instruction.encode { opcode := 0x28, operands := [.bytes [0x0A, 0x01]] } =
      .ok [0x28, 4, 0x0A, 0x01] := rfl
  have back : Instruction.encode { opcode := 0x12, operands := [.offset 6] } = .ok [0x12, 6] := rfl
  have out : Instruction.encode { opcode := 0x11, operands := [.offset 9] } = .ok [0x11, 9, 0] :=
    rfl
  exact .cons block (.cons back (.cons out (.nil 9)))

theorem disassemble_rondo : Script.disassemble 0 rondoBytes = .ok rondo := by
  have order : positions [none, some 0, some 3] = [0, 3] := by simp [positions, distinct, keepNew]
  refine (Script.disassemble_of_positions tiling_rondo ?_ order).trans (by decide +kernel)
  exact .cons ⟨by decide +kernel, by decide⟩ (.cons ⟨by decide +kernel, by decide⟩
    (.cons ⟨by decide +kernel, by decide⟩ .nil))

theorem measured_of_disassemble_rondo :
    Script.disassemble 0 rondoBytes = .ok rondo ∧
      ∃ made, measured rondo = .ok (made, 9) ∧ rows rondo = .ok made ∧
        Command.render .json rondo = .ok (Command.rowsText made) ∧
        made.map Row.offset = [0, 4, 6] := by
  obtain ⟨placed, made, decoded, _, _, total, listed, printed, offsets⟩ :=
    measured_of_disassemble disassemble_rondo
  obtain rfl := (decodeAll_eq_ok_iff.mp decoded).unique tiling_rondo
  exact ⟨disassemble_rondo, made, total, listed, printed, offsets⟩

end Listing

end SceneScript
