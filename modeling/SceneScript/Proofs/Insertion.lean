/-
**Putting an instruction into a script.**

The code around an instruction that is put in keeps its meaning: its labels move with it, as long as
there is a position for them to move to (`Movable`). Seen from the longer script, the lengths of its
other instructions are a layout of the script as it was, since no gap between them is wider there.
So the script as it was can be assembled if the longer one can, and what stays below all layouts
stays below that one.

* `raised_eq_openedAt`: only a label at the last position loses its code;
* `offsetAt_openedAt`, `gap_le_openedAt`: places and gaps with one length more;
* `denotes_of_insert`, `LaidOut.of_insert`: meanings and layouts of the longer script are meanings
  and layouts of the script as it was;
* `findings_of_insert`, `exists_build_of_insert`: the script as it was has nothing wrong with it and
  is built, if the longer one is;
* `slot_le_of_insert`: its slots are not longer than later, and go the same way;
* `assemble_of_insert`: no instruction is written shorter or turned because one is put in;
* `insert_porch_astray`: the bytes do not grow by the length that the instruction announces if it is
  a long branch and its label is near, and a branch to a label at the last position is led
  elsewhere.
-/

import SceneScript.Proofs.Editing
import SceneScript.Proofs.SameCode

namespace SceneScript

open Layout Disassembly
open Script (canonicalCode)

/-! ### Places -/

/-- Where the code before a position ends after an instruction was put in at `index`. -/
def Script.openedAt (index place : Nat) : Nat := if index < place then place + 1 else place

/-- **Labels stay with the code around them**, unless there is no position behind theirs. -/
theorem Script.raised_eq_openedAt {position : Option Nat} (apart : position ≠ some lastPosition)
    {place : Nat} (placed : position = some place) (index : Nat) :
    raised index place = openedAt index place := by
  have before : place ≠ lastPosition := by
    rintro rfl
    exact apart placed
  rw [raised, if_neg before, openedAt]

open Script (openedAt)

/-- The index of an instruction after another was put in at `index`. -/
def Script.displaced (index other : Nat) : Nat := if other < index then other else other + 1

open Script (displaced)

/-- The end of an instruction moves with it. -/
theorem Script.openedAt_succ (index other : Nat) :
    openedAt index (other + 1) = displaced index other + 1 := by
  unfold openedAt displaced
  split <;> split <;> omega

theorem Script.openedAt_le_openedAt {index place place' : Nat} :
    openedAt index place ≤ openedAt index place' ↔ place ≤ place' := by
  unfold openedAt
  split <;> split <;> omega

/-- Positions stay on their side of an instruction. -/
theorem Script.openedAt_le_displaced {index place other : Nat} :
    openedAt index place ≤ displaced index other ↔ place ≤ other := by
  unfold openedAt displaced
  split <;> split <;> omega

/-- Without the item at `index`, the items before and behind it are left. -/
theorem Script.getElem?_eraseIdx_displaced {α : Type} (items : List α) (index other : Nat) :
    (items.eraseIdx index)[other]? = items[displaced index other]? := by
  rw [List.getElem?_eraseIdx]
  exact (apply_ite (fun place => items[place]?) _ _ _).symm

namespace Layout

variable {sizes : List Nat} {index size : Nat}

/-- **A place behind an instruction is its place without it, and its length.** -/
theorem offsetAt_openedAt (found : sizes[index]? = some size) (place : Nat) :
    offsetAt sizes (openedAt index place) =
      offsetAt (sizes.eraseIdx index) place + if index < place then size else 0 := by
  induction sizes generalizing index place with
  | nil => cases found
  | cons first sizes ih =>
    cases place with
    | zero => rfl
    | succ place =>
      cases index with
      | zero =>
        obtain rfl := Option.some.inj found
        show offsetAt (first :: sizes) (place + 1 + 1) = offsetAt sizes (place + 1) + first
        rw [offsetAt_cons, Nat.add_comm]
      | succ index =>
        have step : openedAt (index + 1) (place + 1) = openedAt index place + 1 := by
          unfold openedAt
          split <;> split <;> omega
        rw [step, offsetAt_cons, ih found, List.eraseIdx_cons_succ, offsetAt_cons, Nat.add_assoc]
        simp only [Nat.add_lt_add_iff_right]

/-- **A gap is not wider without an instruction.** -/
theorem gap_le_openedAt (found : sizes[index]? = some size) (other place : Nat) :
    gap (sizes.eraseIdx index) other place ≤
      gap sizes (displaced index other) (openedAt index place) := by
  have mono : Monotone (openedAt index) := fun _ _ => Script.openedAt_le_openedAt.mpr
  rw [gap, gap, ← Script.openedAt_succ, ← mono.map_max, ← mono.map_min, offsetAt_openedAt found,
    offsetAt_openedAt found]
  have ordered : min (other + 1) place ≤ max (other + 1) place := by omega
  have places := offsetAt_le_offsetAt (sizes.eraseIdx index) ordered
  split <;> split <;> omega

/-- A branch that reaches its destination reaches it without an instruction in between. -/
theorem Reaches.of_openedAt (found : sizes[index]? = some size) {flow : Flow} {other place : Nat}
    (reaches : Reaches sizes (displaced index other) flow (openedAt index place)) :
    Reaches (sizes.eraseIdx index) other flow place := by
  unfold Reaches at reaches ⊢
  by_cases long : flow.isLong = true
  · rw [if_pos long, offsetAt_openedAt found] at reaches
    rw [if_pos long]
    exact Nat.lt_of_le_of_lt (Nat.le_add_right _ _) reaches
  · rw [if_neg long, ← Script.openedAt_succ] at reaches
    rw [if_neg long]
    refine ⟨Nat.lt_of_le_of_lt (gap_le_openedAt found other place) reaches.1, ?_⟩
    have side := reaches.2
    by_cases backward : flow.isBackward = true
    · rw [if_pos backward] at side ⊢
      exact Script.openedAt_le_openedAt.mp side
    · rw [if_neg backward] at side ⊢
      exact Script.openedAt_le_openedAt.mp side

/-- **An instruction that fits into a layout fits without one of the others.** -/
theorem Fits.of_openedAt (found : sizes[index]? = some size) {form : Opcode} {body : List UInt8}
    {other : Nat} {place : Option Nat} (inside : ∀ target ∈ place, target < sizes.length)
    (fits : Fits sizes (displaced index other) form body (place.map (openedAt index))) :
    Fits (sizes.eraseIdx index) other form body place := by
  refine ⟨?_, fun target aimed => ?_, fun target aimed => ?_⟩
  · rw [Script.getElem?_eraseIdx_displaced, fits.sized]
  · rw [List.length_eraseIdx_of_lt (List.getElem?_eq_some_iff.mp found).1]
    exact Nat.le_sub_one_of_lt (inside target aimed)
  · exact (fits.reaches (openedAt index target) (Option.mem_map_of_mem _ aimed)).of_openedAt found

end Layout

namespace Script

variable {script longer : Script} {index : Nat} {extra : Instruction}

/-- No branch of a script leads to a label at the last position. -/
def Movable (script : Script) : Prop :=
  ∀ instruction ∈ script.instructions, ∀ label, instruction.target? = some label →
    script.position? label ≠ some lastPosition

theorem movable_of_forall_ne
    (apart : ∀ label ∈ script.labels, label.position ≠ some lastPosition) : script.Movable := by
  intro instruction _ id _ last
  obtain ⟨label, found, position⟩ := Option.bind_eq_some_iff.mp last
  exact apart label (Array.mem_of_getElem? found) position

/-! ### The longer script -/

section Longer

variable (inserted : script.insert index extra = (.ok (), longer))

include inserted

theorem size_of_insert : longer.size = script.size + 1 := by
  obtain ⟨inside, rfl⟩ := insert_eq_ok_iff.mp inserted
  exact List.length_insertIdx_of_le_length inside extra

/-- The instruction that was put in. -/
theorem getElem?_index_of_insert : longer.instructions[index]? = some extra := by
  obtain ⟨inside, rfl⟩ := insert_eq_ok_iff.mp inserted
  exact List.getElem?_insertIdx_self.trans (if_pos inside)

/-- The instructions that were there. -/
theorem getElem?_displaced_of_insert (other : Nat) :
    longer.instructions[displaced index other]? = script.instructions[other]? := by
  obtain ⟨inside, rfl⟩ := insert_eq_ok_iff.mp inserted
  show (script.instructions.insertIdx index extra)[displaced index other]? = _
  unfold displaced
  split
  · next before => exact List.getElem?_insertIdx_of_lt before
  · next behind => exact List.getElem?_insertIdx_of_gt (by omega)

/-- The labels that can move up stay with the code around them. -/
theorem position?_of_insert {label : Nat} (apart : script.position? label ≠ some lastPosition) :
    longer.position? label = (script.position? label).map (openedAt index) := by
  have moved : longer.position? label = (script.position? label).map (raised index) := by
    obtain ⟨_, rfl⟩ := insert_eq_ok_iff.mp inserted
    simp only [position?, label?, Array.getElem?_map, Option.bind_map, Option.map_bind]
    rfl
  rw [moved]
  exact Option.map_congr fun place placed => raised_eq_openedAt apart placed index

theorem placedNames_of_insert : longer.placedNames = script.placedNames := by
  obtain ⟨_, rfl⟩ := insert_eq_ok_iff.mp inserted
  simp only [placedNames, Array.toList_map, List.filter_map, List.map_map]
  refine congrArg₂ List.map rfl (List.filter_congr fun label _ => ?_)
  exact Option.isSome_map

section Movable

variable (movable : script.Movable)

include movable

/-- **An instruction means what it meant**, with its target where that is now. -/
theorem denotes_of_insert {instruction : Instruction} (among : instruction ∈ script.instructions)
    {opcode : Opcode} {body : List UInt8} {place : Option Nat}
    (denotes : longer.Denotes instruction opcode body place) :
    ∃ before, place = before.map (openedAt index) ∧
      script.Denotes instruction opcode body before := by
  have size := size_of_insert inserted
  have inside := (insert_eq_ok_iff.mp inserted).1
  cases denotes with
  | plain known still written => exact ⟨none, rfl, .plain known still written⟩
  | branch known branches written operands position bound =>
    have named := Instruction.target?_of_written known branches written operands
    rw [position?_of_insert inserted (movable _ among _ named)] at position
    obtain ⟨before, own, rfl⟩ := Option.map_eq_some_iff.mp position
    refine ⟨some before, rfl, .branch known branches written operands own ?_⟩
    rw [size] at bound
    unfold openedAt at bound
    split at bound <;> omega

/-- **The lengths of a longer script are a layout of the script as it was**, without the one that
was put in. -/
theorem LaidOut.of_insert {sizes : List Nat} (laid : longer.LaidOut sizes) :
    script.LaidOut (sizes.eraseIdx index) := by
  have size := laid.length_eq.trans (size_of_insert inserted)
  have inside : index < sizes.length := by
    rw [size]
    exact Nat.lt_succ_of_le (insert_eq_ok_iff.mp inserted).1
  have length : (sizes.eraseIdx index).length = script.size := by
    rw [List.length_eraseIdx_of_lt inside, size]
    rfl
  refine ⟨length, fun {other instruction} listed => ?_⟩
  have among := List.mem_of_getElem? listed
  rw [← getElem?_displaced_of_insert inserted] at listed
  obtain ⟨opcode, body, place, form, denotes, member, kin, fits⟩ := laid.fits listed
  obtain ⟨before, rfl, denotes'⟩ := denotes_of_insert inserted movable among denotes
  refine ⟨opcode, body, before, form, denotes', member, kin, ?_⟩
  refine fits.of_openedAt (List.getElem?_eq_getElem inside) fun target aimed => ?_
  rw [size]
  exact Nat.lt_succ_of_le (denotes'.place_le target aimed)

/-- Conditional branches that go forward went forward before. -/
theorem conditionalsForward_of_insert (forward : longer.ConditionalsForward) :
    script.ConditionalsForward := by
  intro other instruction opcode label place listed known conditional named position
  have apart := movable instruction (List.mem_of_getElem? listed) label named
  rw [← getElem?_displaced_of_insert inserted] at listed
  have position' := position?_of_insert inserted apart
  rw [position, Option.map_some] at position'
  have behind := forward _ instruction opcode label _ listed known conditional named position'
  rw [← not_le] at behind ⊢
  exact fun before => behind (openedAt_le_displaced.mpr before)

/-- Nothing is wrong with a script if nothing is wrong with the longer one and that has a layout. -/
theorem findings_of_insert {sizes : List Nat} (laid : longer.LaidOut sizes)
    (nothing : longer.findings {} = []) : script.findings {} = [] := by
  obtain ⟨names, forward⟩ := (findings_eq_nil_iff_of_laidOut laid rfl).mp nothing
  refine (findings_eq_nil_iff_of_laidOut (laid.of_insert inserted movable) rfl).mpr ⟨?_, ?_⟩
  · rw [← placedNames_of_insert inserted]
    exact names
  · exact conditionalsForward_of_insert inserted movable forward

end Movable

end Longer

/-! ### Assemblies -/

/-- The destinations of two forms of an instruction differ by a byte at most, and that of a short
form is not longer. -/
theorem destinationSize_le_form {form other : Opcode} (member : form ∈ Opcode.catalogue)
    (member' : other ∈ Opcode.catalogue) (kin : canonicalCode form = canonicalCode other) :
    form.flow.destinationSize ≤
      other.flow.destinationSize + if form.flow.isLong then 1 else 0 := by
  cases long : form.flow.isLong with
  | false => exact destinationSize_le member member' kin long
  | true =>
    have width : form.flow.width? = some .long := of_decide_eq_true long
    have branches : other.flow.hasTarget = true := by
      rw [← Opcode.hasTarget_eq_of_kin member member' kin, Flow.hasTarget, width]
      rfl
    obtain ⟨own, known⟩ := Option.isSome_iff_exists.mp branches
    rw [Flow.destinationSize_of_width? width, Flow.destinationSize_of_width? known]
    cases own <;> decide

/-- **A slot is as long as its instruction announces or longer**, and one byte shorter at most if
that is a long branch. -/
theorem Carries.announced_le {slots : List Slot} (carries : script.Carries slots) {slot : Slot}
    (found : slots[index]? = some slot) (listed : script.instructions[index]? = some extra) :
    ∃ opcode size, extra.opcode? = some opcode ∧ extra.size? = some size ∧
      size ≤ slot.size + if opcode.flow.isLong then 1 else 0 := by
  obtain ⟨_, opcode, body, _, form, listed', denotes, holds, kin⟩ := carries.holds found
  obtain rfl := Option.some.inj (listed.symm.trans listed')
  refine ⟨opcode, _, denotes.known, denotes.size?_eq, ?_⟩
  have close := destinationSize_le_form denotes.member holds.member kin.symm
  rw [holds.sized]
  omega

section Slots

variable {slots slots' : List Slot} (inserted : script.insert index extra = (.ok (), longer))
  (movable : script.Movable)

include inserted movable

/-- **A script is built if the longer one has checked slots**, and its own slots are not longer than
those that stand around the one that was put in. -/
theorem exists_build_of_insert (checked : longer.Checked slots')
    (nothing : longer.findings {} = []) :
    ∃ before slots, script.build {} = .ok before ∧ script.Carries slots ∧
      List.Forall₂ (· ≤ ·) (sizes slots) ((sizes slots').eraseIdx index) ∧
      before.bytes.length = (sizes slots).sum ∧
      ∀ {other : Nat} {slot : Slot}, slots[other]? = some slot →
        ∃ one own, before.instructions[other]? = some one ∧ one.opcode? = slot.opcode ∧
          one.encode = .ok own ∧ own.length = slot.size := by
  have laid := checked.laidOut.of_insert inserted movable
  have nothing' := findings_of_insert inserted movable checked.laidOut nothing
  have small : ((sizes slots').eraseIdx index).sum ≤ maxScriptLength :=
    ((List.eraseIdx_sublist _ index).sum_le_sum fun _ _ => Nat.zero_le _).trans checked.small
  obtain ⟨before, built⟩ := exists_build laid small rfl nothing'
  obtain ⟨count, slots, same, checked', total, each⟩ := slots_of_build built
  have below := iterate_pass_le_laidOut laid nothing' count
  rw [← same] at below
  exact ⟨before, slots, built, checked'.carries, below, total, each⟩

/-- **A slot of a script as it was is not longer than later, and goes the same way.** -/
theorem slot_le_of_insert (carries : script.Carries slots) (carries' : longer.Carries slots')
    (below : List.Forall₂ (· ≤ ·) (sizes slots) ((sizes slots').eraseIdx index)) {other : Nat}
    {slot slot' : Slot} (found : slots[other]? = some slot)
    (found' : slots'[displaced index other]? = some slot') :
    slot.size ≤ slot'.size ∧
      ∃ form form', slot.opcode = some form ∧ slot'.opcode = some form' ∧
        canonicalCode form = canonicalCode form' ∧
        form.flow.isBackward = form'.flow.isBackward := by
  have later := (getElem?_eraseIdx_displaced _ index other).trans (getElem?_sizes found')
  refine ⟨(Traversal.forall₂_iff_getElem?.mp below).2 other _ _ (getElem?_sizes found) later, ?_⟩
  obtain ⟨x, opcode, body, place, form, listed, denotes, holds, kin⟩ := carries.holds found
  obtain ⟨y, _, _, _, form', listed', denotes', holds', kin'⟩ := carries'.holds found'
  rw [getElem?_displaced_of_insert inserted, listed] at listed'
  obtain rfl := Option.some.inj listed'
  have among := List.mem_of_getElem? listed
  obtain ⟨before, rfl, denotes''⟩ := denotes_of_insert inserted movable among denotes'
  obtain ⟨rfl, rfl, rfl⟩ := denotes.unique denotes''
  refine ⟨form, form', holds.chosen, holds'.chosen, kin.trans kin'.symm, ?_⟩
  rw [isBackward_of_holds holds, isBackward_of_holds holds', Option.map_map]
  congr 2
  funext target
  exact decide_eq_decide.mpr openedAt_le_displaced.symm

end Slots

end Script

/-- Two written forms of one instruction: the first is not longer, and both go the same way. -/
def Instruction.StretchesTo (x y : Instruction) : Prop :=
  ∃ bytes bytes' form form', x.encode = .ok bytes ∧ y.encode = .ok bytes' ∧
    bytes.length ≤ bytes'.length ∧ x.opcode? = some form ∧ y.opcode? = some form' ∧
    canonicalCode form = canonicalCode form' ∧ form.flow.isBackward = form'.flow.isBackward

namespace Script

/-- **No instruction is written shorter or turned because one is put in.** If no branch leads to a
label at the last position and the longer script can be assembled, then so can the script as it was.
Each instruction of it is then written in no more bytes and in the same direction as later, and the
longer script has at least the bytes of the instruction that was put in more. Those are not fewer
than it announces, except that a long branch may be written as a short one, with one byte less. -/
theorem assemble_of_insert {script : Script} {index : Nat} (inside : index ≤ script.size)
    (movable : script.Movable) (extra : Instruction) (origin origin' : Origin) :
    ∃ longer, script.insert index extra = (.ok (), longer) ∧
      ∀ after, longer.assemble origin = .ok after →
        ∃ before, script.assemble origin' = .ok before ∧
          (∀ other < script.size, ∃ x y, before.instructions[other]? = some x ∧
            after.instructions[displaced index other]? = some y ∧ x.StretchesTo y) ∧
          ∃ own bytes opcode size, after.instructions[index]? = some own ∧
            own.encode = .ok bytes ∧ before.bytes.length + bytes.length ≤ after.bytes.length ∧
            extra.opcode? = some opcode ∧ extra.size? = some size ∧
            size ≤ bytes.length + if opcode.flow.isLong then 1 else 0 := by
  obtain ⟨longer, inserted⟩ : ∃ longer, script.insert index extra = (.ok (), longer) :=
    ⟨_, insert_eq_ok_iff.mpr ⟨inside, rfl⟩⟩
  refine ⟨longer, inserted, fun after assembled => ?_⟩
  have built' := assemble_eq_ok_iff.mp assembled
  obtain ⟨_, _, nothing, _⟩ := build_eq_ok_iff.mp built'
  obtain ⟨_, slots', _, checked, total', each'⟩ := slots_of_build built'
  obtain ⟨before, slots, built, carries, below, total, each⟩ :=
    exists_build_of_insert inserted movable checked nothing
  have count' := checked.carries.length_eq.trans (size_of_insert inserted)
  refine ⟨before, assemble_eq_ok_iff.mpr built, fun other old => ?_, ?_⟩
  · have later : displaced index other < slots'.length := by
      unfold displaced
      split <;> omega
    have found := List.getElem?_eq_getElem (carries.length_eq ▸ old)
    have found' := List.getElem?_eq_getElem later
    obtain ⟨shorter, form, form', chosen, chosen', kin, side⟩ :=
      slot_le_of_insert inserted movable carries checked.carries below found found'
    obtain ⟨x, bytes, listed, opcode, encoded, length⟩ := each found
    obtain ⟨y, bytes', listed', opcode', encoded', length'⟩ := each' found'
    rw [← length, ← length'] at shorter
    exact ⟨x, y, listed, listed', bytes, bytes', form, form', encoded, encoded', shorter,
      opcode.trans chosen, opcode'.trans chosen', kin, side⟩
  · have among : index < (sizes slots').length := by
      rw [length_sizes, count']
      exact Nat.lt_succ_of_le inside
    have found := List.getElem?_eq_getElem (length_sizes slots' ▸ among)
    obtain ⟨own, bytes, listed, _, encoded, length⟩ := each' found
    have split := List.CommMonoid.add_sum_eraseIdx among
    have own_size := (List.getElem?_eq_some_iff.mp (getElem?_sizes found)).2
    have sums := below.sum_le_sum
    obtain ⟨opcode, size, known, announced, close⟩ :=
      checked.carries.announced_le found (getElem?_index_of_insert inserted)
    rw [← length] at close
    exact ⟨own, bytes, opcode, size, listed, encoded, by omega, known, announced, close⟩

/-- A jump over a long instruction to the end, as far as a short jump reaches. -/
def brink : Script where
  id := 0
  instructions := [.jump 0, { opcode := 0x28, operands := [.bytes (List.replicate 253 0)] }]
  labels := #[{ id := 0, name := "out", position := some 2 }]

/-- The same with a pause behind the jump. -/
def beyond : Script where
  id := 0
  instructions := [.jump 0, .nop, { opcode := 0x28, operands := [.bytes (List.replicate 253 0)] }]
  labels := #[{ id := 0, name := "out", position := some 3 }]

theorem build_beyond : beyond.build {} = .ok {
    bytes := [0x11, 3, 1, 0x5F, 0x28, 255] ++ List.replicate 253 0
    instructions := [{ opcode := 0x11, operands := [.offset 259] }, .nop,
      { opcode := 0x28, operands := [.bytes (List.replicate 253 0)] }]
    offsets := #[0, 3, 4, 259]
    passes := 2 } :=
  build_of_eval (by decide +kernel) (by decide +kernel) (by decide +kernel)

theorem assemble_of_insert_brink :
    1 ≤ brink.size ∧ brink.Movable ∧ brink.insert 1 .nop = (.ok (), beyond) ∧
    ∃ after, beyond.assemble { script := 0 } = .ok after ∧
      ∃ before, brink.assemble { script := 0 } = .ok before ∧
        (∃ x y, before.instructions[0]? = some x ∧ after.instructions[0]? = some y ∧
          x.StretchesTo y) ∧
        before.bytes.length + 1 ≤ after.bytes.length := by
  have inside : 1 ≤ brink.size := by decide
  have movable : brink.Movable := movable_of_forall_ne (by decide)
  have inserted : brink.insert 1 .nop = (.ok (), beyond) := by decide +kernel
  have assembled : beyond.assemble { script := 0 } = .ok _ := assemble_eq_ok_iff.mpr build_beyond
  obtain ⟨longer, inserted', later⟩ :=
    assemble_of_insert inside movable .nop { script := 0 } { script := 0 }
  obtain rfl := (Prod.mk.inj (inserted.symm.trans inserted')).2
  obtain ⟨before, assembled', each, _, bytes, opcode, size, _, _, grown, known, announced, close⟩ :=
    later _ assembled
  have short : ∀ opcode ∈ Instruction.nop.opcode?, opcode.flow.isLong = false := by decide +kernel
  have one : Instruction.nop.size? = some 1 := by decide +kernel
  rw [short opcode known, if_neg Bool.false_ne_true] at close
  obtain rfl := Option.some.inj (one.symm.trans announced)
  exact ⟨inside, movable, inserted, _, assembled, before, assembled', each 0 (by decide),
    (Nat.add_le_add_left close _).trans grown⟩

/-- A label before a pause. -/
def porch : Script where
  id := 0
  instructions := [.nop]
  labels := #[{ id := 0, name := "in", position := some 0 }]

/-- The same with a long jump back to the label. -/
def loop : Script where
  id := 0
  instructions := [.nop, .branch 0x13 [] 0]
  labels := #[{ id := 0, name := "in", position := some 0 }]

/-- A jump back to a label at the last position. -/
def astray : Script where
  id := 0
  instructions := [.branch 0x12 [] 0]
  labels := #[{ id := 0, name := "in", position := some lastPosition }]

/-- The same with a pause before the jump, and the label before the pause. -/
def caught : Script where
  id := 0
  instructions := [.nop, .branch 0x12 [] 0]
  labels := #[{ id := 0, name := "in", position := some 0 }]

theorem build_porch : porch.build {} = .ok {
    bytes := [0x5F]
    instructions := [.nop]
    offsets := #[0, 1]
    passes := 1 } :=
  build_of_eval (by decide +kernel) (by decide +kernel) (by decide +kernel)

theorem build_loop : loop.build {} = .ok {
    bytes := [0x5F, 0x12, 3]
    instructions := [.nop, { opcode := 0x12, operands := [.offset 3] }]
    offsets := #[0, 1, 3]
    passes := 1 } :=
  build_of_eval (by decide +kernel) (by decide +kernel) (by decide +kernel)

theorem build_caught : caught.build {} = .ok {
    bytes := [0x5F, 0x12, 3]
    instructions := [.nop, { opcode := 0x12, operands := [.offset 3] }]
    offsets := #[0, 1, 3]
    passes := 1 } :=
  build_of_eval (by decide +kernel) (by decide +kernel) (by decide +kernel)

theorem build_astray_ne (assembly : Assembly) : astray.build {} ≠ .ok assembly := by
  intro built
  obtain ⟨_, _, nothing, _⟩ := build_eq_ok_iff.mp built
  have faultless := (findings_eq_nil_iff.mp nothing).2 0 _ rfl
  revert faultless
  decide +kernel

/-- What is put in does not always add the bytes that it announces: a long jump to a near label is
written as a short one. And it can lead a branch to other code: a label at the last position comes
to stand at the first one, so that a script that could not be assembled can be. -/
theorem insert_porch_astray :
    (∃ before after, porch.insert 1 (.branch 0x13 [] 0) = (.ok (), loop) ∧
      porch.assemble { script := 0 } = .ok before ∧ loop.assemble { script := 0 } = .ok after ∧
      (Instruction.branch 0x13 [] 0).size? = some 3 ∧
      after.bytes.length < before.bytes.length + 3) ∧
    ∃ after, astray.insert 0 .nop = (.ok (), caught) ∧
      caught.assemble { script := 0 } = .ok after ∧ after.bytes = [0x5F, 0x12, 3] ∧
      ∀ origin before, astray.assemble origin ≠ .ok before := by
  refine ⟨⟨_, _, by decide +kernel, assemble_eq_ok_iff.mpr build_porch,
    assemble_eq_ok_iff.mpr build_loop, by decide +kernel, by decide⟩,
    _, by decide +kernel, assemble_eq_ok_iff.mpr build_caught, rfl, ?_⟩
  intro origin before assembled
  exact build_astray_ne before (assemble_eq_ok_iff.mp assembled)

end Script

end SceneScript
