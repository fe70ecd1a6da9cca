/-
**Disassembly loses nothing.**

A disassembled script has labels in place of the numbers that the branches hold. The numbers can be
found again: the lengths of the instructions follow from their opcodes and their other operands, and
a branch in the midst of known lengths holds the one number that leads to its label. So bytes can be
told from the script, whatever its labels are called and however they are numbered.

* `Flow.landing_inj`: a branch leads to different places with different numbers;
* `resolved_of_disassemble`: a decoded instruction is what its meaning says, with the number that
  leads to its target;
* `sameForm_iff`: instructions of one form (`SameForm`) are those with one meaning in one row;
* `bytes_eq_iff_sameForm`: two byte strings are the same exactly if their scripts have instructions
  of one form.
-/

import SceneScript.Proofs.Shortest

namespace SceneScript

open Layout Disassembly

/-- A branch leads to different places with different numbers. -/
theorem Flow.landing_inj (flow : Flow) (next : Int) {raw raw' : Int}
    (same : flow.landing next raw = flow.landing next raw') : raw = raw' := by
  unfold landing at same
  by_cases long : flow.isLong = true
  · rwa [if_pos long, if_pos long] at same
  · by_cases backward : flow.isBackward = true
    · rw [if_neg long, if_neg long, if_pos backward, if_pos backward] at same
      omega
    · rw [if_neg long, if_neg long, if_neg backward, if_neg backward] at same
      omega

/-- Bytes that are tiled by the same instructions are the same. -/
theorem Disassembly.Tiling.bytes_eq {start start' : Nat} {placed placed' : List Placed}
    {bytes bytes' : List UInt8} (tiling : Tiling start placed bytes)
    (tiling' : Tiling start' placed' bytes')
    (same : placed.map Placed.instruction = placed'.map Placed.instruction) : bytes = bytes' := by
  induction tiling generalizing start' placed' bytes' with
  | nil =>
    obtain rfl := List.map_eq_nil_iff.mp same.symm
    cases tiling'
    rfl
  | cons encoded _ ih =>
    cases tiling' with
    | nil => cases same
    | cons encoded' rest' =>
      obtain ⟨first, others⟩ := List.cons.inj same
      have part := encoded.symm.trans ((congrArg Instruction.encode first).trans encoded')
      rw [Except.ok.inj part, ih rest' others]

namespace Script

variable {id id' : UInt8} {bytes bytes' : List UInt8} {left right decoded : Script}

/-! ### Numbers that branches hold -/

/-- **A decoded instruction is what its meaning says**, with the number that leads to its target
among the lengths of the other instructions. -/
theorem resolved_of_disassemble (accepted : disassemble id bytes = .ok decoded)
    {placed : List Placed} (tiling : Tiling 0 placed bytes) {index : Nat} {item : Placed}
    (found : placed[index]? = some item) :
    ∃ instruction opcode body place, decoded.instructions[index]? = some instruction ∧
      decoded.Denotes instruction opcode body place ∧
      Fits (placed.map Placed.size) index opcode body place ∧
      item.instruction.Resolved opcode body
        (place.map (held (placed.map Placed.size) index opcode.flow)) := by
  obtain ⟨_, _, _, place, _, _, _, lands, _⟩ := denotes_of_disassemble accepted tiling found
  obtain ⟨opcode, body, raw, resolved, fits⟩ := fits_of_lands tiling found lands
  obtain ⟨instruction, listed, denotes⟩ := denotes_of_lands accepted tiling found resolved lands
  refine ⟨instruction, opcode, body, place, listed, denotes, fits, ?_⟩
  have leads := lands.1
  rw [Placed.destination?_eq resolved, tiling.next_eq found] at leads
  have numbers : raw = place.map (held (placed.map Placed.size) index opcode.flow) := by
    cases place with
    | none => exact Option.map_eq_none_iff.mp leads
    | some target =>
      obtain ⟨number, rfl, own⟩ := Option.map_eq_some_iff.mp leads
      have right := landing_held (fits.reaches target rfl)
      have same := opcode.flow.landing_inj _ (own.trans right.symm)
      rw [Option.map_some, Int.ofNat_inj.mp same]
  rwa [← numbers]

/-! ### Instructions of one form -/

/-- Instructions of one form in two scripts: they have one opcode, and operands that are equal or
labels at one position. -/
structure SameForm (left right : Script) (x y : Instruction) : Prop where
  opcode_eq : x.opcode = y.opcode
  operands : List.Forall₂ (SameOperand left right) x.operands y.operands

/-- **Instructions of one form are those with one meaning**, in one row of the catalogue. -/
theorem sameForm_iff {x y : Instruction} {opcode : Opcode} {body : List UInt8} {place : Option Nat}
    (sizes : left.size = right.size) (denotes : left.Denotes x opcode body place) :
    SameForm left right x y ↔ right.Denotes y opcode body place := by
  refine ⟨fun form => ?_, fun denotes' => ?_⟩
  · have known : y.opcode? = some opcode := by
      rw [Instruction.opcode?, ← form.opcode_eq]
      exact denotes.known
    have same := (sameInstruction_eq_true_iff denotes.known).mpr
      ⟨opcode, known, rfl, form.operands⟩
    obtain ⟨other, denotes', _⟩ := (sameInstruction_iff sizes denotes).mp same
    obtain rfl := Option.some.inj (known.symm.trans denotes'.known)
    exact denotes'
  · have same := (sameInstruction_iff sizes denotes).mpr ⟨opcode, denotes', rfl⟩
    obtain ⟨_, _, _, operands⟩ := (sameInstruction_eq_true_iff denotes.known).mp same
    refine ⟨?_, operands⟩
    exact (Opcode.code_of_ofCode? denotes.known).symm.trans (Opcode.code_of_ofCode? denotes'.known)

section Bytes

variable (accepted : disassemble id bytes = .ok left)
  (accepted' : disassemble id' bytes' = .ok right)
  {placed placed' : List Placed} (tiling : Tiling 0 placed bytes)
  (tiling' : Tiling 0 placed' bytes')
  (same : List.Forall₂ (SameForm left right) left.instructions right.instructions)

include accepted accepted' tiling tiling' same

theorem length_eq_of_sameForm : placed.length = placed'.length := by
  rw [← size_of_disassemble accepted tiling, ← size_of_disassemble accepted' tiling']
  exact same.length_eq

/-- Decoded instructions whose forms are one are made of the same parts. -/
theorem parts_of_sameForm {index : Nat} {item item' : Placed} (found : placed[index]? = some item)
    (found' : placed'[index]? = some item') :
    ∃ opcode body place,
      (Fits (placed.map Placed.size) index opcode body place ∧
        Fits (placed'.map Placed.size) index opcode body place) ∧
      item.instruction.Resolved opcode body
        (place.map (held (placed.map Placed.size) index opcode.flow)) ∧
      item'.instruction.Resolved opcode body
        (place.map (held (placed'.map Placed.size) index opcode.flow)) := by
  obtain ⟨count, each⟩ := Traversal.forall₂_iff_getElem?.mp same
  obtain ⟨x, opcode, body, place, listed, denotes, fits, resolved⟩ :=
    resolved_of_disassemble accepted tiling found
  obtain ⟨y, _, _, _, listed', denotes', fits', resolved'⟩ :=
    resolved_of_disassemble accepted' tiling' found'
  have form := (sameForm_iff count denotes).mp (each index x y listed listed')
  obtain ⟨rfl, rfl, rfl⟩ := form.unique denotes'
  exact ⟨opcode, body, place, ⟨fits, fits'⟩, resolved, resolved'⟩

theorem sizes_eq_of_sameForm : placed.map Placed.size = placed'.map Placed.size := by
  have lengths := length_eq_of_sameForm accepted accepted' tiling tiling' same
  refine List.ext_getElem (by simpa using lengths) fun index inside inside' => ?_
  rw [List.length_map] at inside inside'
  obtain ⟨_, _, _, ⟨fits, fits'⟩, _⟩ := parts_of_sameForm accepted accepted' tiling tiling' same
    (List.getElem?_eq_getElem inside) (List.getElem?_eq_getElem inside')
  have size := fits.sized.trans fits'.sized.symm
  rwa [List.getElem?_eq_getElem, List.getElem?_eq_getElem, Option.some.injEq] at size

/-- **Disassembled scripts with instructions of one form come from the same instructions.** -/
theorem instructions_eq_of_sameForm :
    placed.map Placed.instruction = placed'.map Placed.instruction := by
  -- the lengths first: what a branch holds depends on all of them
  have sizes := sizes_eq_of_sameForm accepted accepted' tiling tiling' same
  have lengths := length_eq_of_sameForm accepted accepted' tiling tiling' same
  refine List.ext_getElem (by simpa using lengths) fun index inside inside' => ?_
  rw [List.length_map] at inside inside'
  obtain ⟨_, _, _, _, resolved, resolved'⟩ := parts_of_sameForm accepted accepted' tiling tiling'
    same (List.getElem?_eq_getElem inside) (List.getElem?_eq_getElem inside')
  rw [← sizes] at resolved'
  rw [List.getElem_map, List.getElem_map]
  exact resolved.unique resolved'

end Bytes

/-- **Disassembly loses nothing**: two byte strings that are disassembled are the same exactly if
their scripts have the same opcodes, the same operands other than labels, and labels at the same
positions, whatever the numbers and the names of the labels are. -/
theorem bytes_eq_iff_sameForm (accepted : disassemble id bytes = .ok left)
    (accepted' : disassemble id' bytes' = .ok right) :
    bytes = bytes' ↔
      List.Forall₂ (SameForm left right) left.instructions right.instructions := by
  obtain ⟨placed, tiling⟩ := exists_tiling accepted
  obtain ⟨placed', tiling'⟩ := exists_tiling accepted'
  refine ⟨fun equal => ?_, fun same => ?_⟩
  · obtain rfl := equal
    obtain rfl := tiling.unique tiling'
    have sizes : left.size = right.size := by
      rw [size_of_disassemble accepted tiling, size_of_disassemble accepted' tiling]
    refine Traversal.forall₂_iff_getElem?.mpr ⟨sizes, fun index x y listed listed' => ?_⟩
    obtain ⟨item, _, _, _, found, _, _, lands, _⟩ :=
      exists_placed_of_disassemble accepted tiling listed
    obtain ⟨opcode, body, raw, resolved, _⟩ := fits_of_lands tiling found lands
    obtain ⟨_, own, denotes⟩ := denotes_of_lands accepted tiling found resolved lands
    obtain ⟨_, own', denotes'⟩ := denotes_of_lands accepted' tiling found resolved lands
    obtain rfl := Option.some.inj (listed.symm.trans own)
    obtain rfl := Option.some.inj (listed'.symm.trans own')
    exact (sameForm_iff sizes denotes).mpr denotes'
  · exact tiling.bytes_eq tiling'
      (instructions_eq_of_sameForm accepted accepted' tiling tiling' same)

theorem bytes_eq_iff_sameForm_hop :
    disassemble 0 [0x5F, 0x13, 0, 0, 0x11, 7, 0] = .ok hopLong ∧
    disassemble 7 [0x5F, 0x13, 0, 0, 0x11, 7, 0] = .ok { hopLong with id := 7 } ∧
    List.Forall₂ (SameForm hopLong { hopLong with id := 7 }) hopLong.instructions
      hopLong.instructions ∧
    ∃ short, disassemble 0 [0x5F, 0x12, 3, 0x10, 0] = .ok short ∧
      ¬List.Forall₂ (SameForm hopLong short) hopLong.instructions short.instructions := by
  have again : disassemble 7 [0x5F, 0x13, 0, 0, 0x11, 7, 0] = .ok { hopLong with id := 7 } := by
    obtain ⟨placed, targets, tiling, lands, same⟩ := disassemble_eq_ok_iff.mp disassemble_hop
    exact disassemble_eq_ok_iff.mpr ⟨placed, targets, tiling, lands, by rw [same]; rfl⟩
  have pause : Instruction.nop.encode = .ok [0x5F] := rfl
  have back : Instruction.encode { opcode := 0x12, operands := [.offset 3] } = .ok [0x12, 3] := rfl
  have forth : Instruction.encode { opcode := 0x10, operands := [.offset 0] } = .ok [0x10, 0] := rfl
  have tiling := Tiling.cons pause (Tiling.cons back (Tiling.cons forth (.nil 5)))
  have accepted : ∃ short, disassemble 0 [0x5F, 0x12, 3, 0x10, 0] = .ok short :=
    ⟨_, disassemble_eq_ok_iff.mpr ⟨_, [none, some 0, some 3], tiling,
      .cons ⟨by decide +kernel, by decide⟩ (.cons ⟨by decide +kernel, by decide⟩
        (.cons ⟨by decide +kernel, by decide⟩ .nil)), rfl⟩⟩
  obtain ⟨short, accepted⟩ := accepted
  refine ⟨disassemble_hop, again, (bytes_eq_iff_sameForm disassemble_hop again).mp rfl, short,
    accepted, fun same => ?_⟩
  exact absurd ((bytes_eq_iff_sameForm disassemble_hop accepted).mpr same) (by decide)

end Script

end SceneScript
