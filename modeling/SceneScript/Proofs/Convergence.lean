/-
**As many passes as instructions are enough.**

A pass that changes anything makes a branch long, so a script of `n` instructions settles with at
most `n` such passes and one more that changes nothing. That last pass fits into `n` too:

* if some instruction cannot be made long, at most `n - 1` passes change anything;
* if all of them can, all lengths are even, and so is every gap before the first pass. A branch that
  the first pass left alone has then a gap of at most 254. If the pass made only one branch long,
  no gap is above 255 now, and the slots are settled; if it made two or more long, it saved a pass.

`room` is the number of branches that can still be made long, and `size_add_room_pass` says that a
pass turns room into length. Main statement: `settles_within_size`.
-/

import SceneScript.Proofs.Findings
import Mathlib.Data.Nat.Find

namespace SceneScript

open Layout

namespace Slot

/-- The number of bytes that a slot can still grow by. -/
def room (slot : Slot) : Nat := if slot.canGrow then 1 else 0

theorem room_le_one (slot : Slot) : slot.room ≤ 1 := by
  unfold room
  split <;> omega

/-- What a slot grows by comes out of its room. -/
theorem size_add_room_promote {count index : Nat} {slot : Slot} (sound : slot.Sound count index)
    (offsets : Array Nat) :
    (slot.promote offsets index).size + (slot.promote offsets index).room =
      slot.size + slot.room := by
  cases promoted : slot.promotion? offsets index with
  | none => rw [promote_of_none _ _ _ promoted]
  | some long =>
    obtain ⟨targeted, opcode, chosen, twin⟩ := growth_of_promotion? promoted
    have isLong := Opcode.isLong_of_longTwin? (sound.known chosen) twin
    have before : slot.room = 1 := by
      simp [room, canGrow, targeted, chosen, twin]
    have after : (slot.promote offsets index).room = 0 := by
      simp [promote_of_some _ _ _ promoted, room, canGrow,
        Opcode.longTwin?_eq_none_of_isLong isLong]
    rw [after, before, promote_of_some _ _ _ promoted]

end Slot

namespace Layout

/-- The number of bytes that slots can still grow by. -/
def room (slots : List Slot) : Nat := (slots.map Slot.room).sum

variable {slots : List Slot}

theorem room_cons (slot : Slot) (slots : List Slot) :
    room (slot :: slots) = slot.room + room slots := by
  simp [room]

theorem room_le_length (slots : List Slot) : room slots ≤ slots.length := by
  induction slots with
  | nil => exact Nat.le_refl 0
  | cons slot slots ih =>
    have own := slot.room_le_one
    rw [room_cons, List.length_cons]
    omega

/-- If there is room for a byte in every slot, every slot can be made long. -/
theorem canGrow_of_room (full : slots.length ≤ room slots) :
    ∀ slot ∈ slots, slot.canGrow = true := by
  induction slots with
  | nil => exact fun _ impossible => absurd impossible List.not_mem_nil
  | cons first slots ih =>
    have bound := first.room_le_one
    have rest := room_le_length slots
    rw [room_cons, List.length_cons] at full
    intro slot member
    rcases List.mem_cons.mp member with rfl | later
    · by_contra stays
      have none : slot.room = 0 := by simp [Slot.room, stays]
      omega
    · exact ih (by omega) slot later

/-- **A pass turns room into length.** -/
theorem size_add_room_pass (sound : Sound slots) :
    (sizes (pass slots)).sum + room (pass slots) = (sizes slots).sum + room slots := by
  have each : (pass slots).map (fun slot => slot.size + slot.room) =
      slots.map (fun slot => slot.size + slot.room) := by
    refine List.ext_getElem? fun index => ?_
    rw [List.getElem?_map, List.getElem?_map, getElem?_pass]
    cases found : slots[index]? with
    | none => rfl
    | some slot =>
      rw [Option.map_some, Option.map_some, Option.map_some,
        Slot.size_add_room_promote (sound index slot found)]
  simpa [sizes, room, List.sum_map_add] using congrArg List.sum each

theorem eq_of_sum_le {first second : List Nat} (longer : List.Forall₂ (· ≤ ·) first second)
    (total : second.sum ≤ first.sum) : first = second := by
  induction longer with
  | nil => rfl
  | cons head tail ih =>
    have rest := tail.sum_le_sum
    rw [List.sum_cons, List.sum_cons] at total
    rw [ih (by omega), Nat.le_antisymm head (by omega)]

/-- A pass over slots that are not settled makes some slot longer. -/
theorem sum_lt_pass (moving : ¬Settled slots) : (sizes slots).sum < (sizes (pass slots)).sum := by
  by_contra still
  have same := eq_of_sum_le (sizes_le_pass slots) (Nat.le_of_not_lt still)
  refine moving fun index slot found => ?_
  have own : (sizes slots)[index]? = (sizes (pass slots))[index]? := by rw [← same]
  rw [getElem?_sizes found, sizes, List.getElem?_map, getElem?_pass, found] at own
  cases promoted : slot.promotion? (startOffsets (sizes slots)) index with
  | none => rfl
  | some long =>
    rw [Option.map_some, Option.map_some, Slot.promote_of_some _ _ _ promoted] at own
    simp at own

/-- Slots settle in no more passes than they have room. -/
theorem exists_settled_of_room (sound : Sound slots) :
    ∃ count ≤ room slots, Settled (pass^[count] slots) := by
  generalize bound : room slots = limit
  induction limit using Nat.strong_induction_on generalizing slots with
  | _ limit ih =>
    by_cases settled : Settled slots
    · exact ⟨0, Nat.zero_le _, settled⟩
    · have longer := sum_lt_pass settled
      have balance := size_add_room_pass sound
      obtain ⟨count, within, reached⟩ := ih (room (pass slots)) (by omega) sound.pass rfl
      exact ⟨count + 1, by omega, reached⟩

/-! ### Slots that can all be made long -/

/-- A slot that a pass made longer is long. -/
theorem promotion?_of_pass (sound : Sound slots) {index : Nat} {slot : Slot} {long : Opcode}
    {offsets : Array Nat} (found : slots[index]? = some slot)
    (again : (slot.promote (startOffsets (sizes slots)) index).promotion? offsets index =
      some long) :
    slot.promotion? (startOffsets (sizes slots)) index = none := by
  cases promoted : slot.promotion? (startOffsets (sizes slots)) index with
  | none => rfl
  | some first =>
    obtain ⟨_, opcode, chosen, twin⟩ := Slot.growth_of_promotion? promoted
    have isLong := Opcode.isLong_of_longTwin? ((sound index slot found).known chosen) twin
    obtain ⟨_, opcode', chosen', twin'⟩ := Slot.growth_of_promotion? again
    rw [Slot.promote_of_some _ _ _ promoted] at chosen'
    cases chosen'
    rw [Opcode.longTwin?_eq_none_of_isLong isLong] at twin'
    cases twin'

/-- **If all lengths are even and a pass makes one branch long, the slots are settled.** A branch
that the pass left alone had an even gap of at most 255, that is, of at most 254. -/
theorem settled_pass_of_even (sound : Sound slots) (even : ∀ slot ∈ slots, 2 ∣ slot.size)
    (single : (sizes (pass slots)).sum ≤ (sizes slots).sum + 1) : Settled (pass slots) := by
  intro index slot found
  cases again : slot.promotion? (startOffsets (sizes (pass slots))) index with
  | none => rfl
  | some long =>
    exfalso
    obtain ⟨opcode, target, chosen, targeted, short, far, twin⟩ :=
      (Slot.promotion?_eq_some_iff (sound.pass.sound_slot found) (getElem?_sizes found)).mp again
    rw [getElem?_pass] at found
    obtain ⟨before, located, rfl⟩ := Option.map_eq_some_iff.mp found
    have still := promotion?_of_pass sound located again
    rw [Slot.promote_of_none _ _ _ still] at chosen targeted
    have near : gap (sizes slots) index target.index ≤ 255 := by
      by_contra wide
      have promoted := (Slot.promotion?_eq_some_iff (sound.sound_slot located)
        (getElem?_sizes located)).mpr
          ⟨opcode, target, chosen, targeted, short, Nat.lt_of_not_le wide, twin⟩
      rw [still] at promoted
      cases promoted
    have halved : 2 ∣ gap (sizes slots) index target.index := by
      refine dvd_gap (fun size member => ?_) index target.index
      obtain ⟨slot, among, rfl⟩ := List.mem_map.mp member
      exact even slot among
    have grown := gap_le_add (sizes_le_pass slots) index target.index single
    omega

/-- A script of one short instruction is settled. -/
theorem settled_of_length_le_one (sound : Sound slots) (single : slots.length ≤ 1)
    (small : ∀ slot ∈ slots, slot.size ≤ 8) : Settled slots := by
  have total : (sizes slots).sum ≤ 8 := by
    rcases slots with _ | ⟨only, _ | ⟨second, rest⟩⟩
    · exact Nat.zero_le 8
    · simpa [sizes] using small only List.mem_cons_self
    · simp at single
  intro index slot found
  cases promoted : slot.promotion? (startOffsets (sizes slots)) index with
  | none => rfl
  | some long =>
    exfalso
    obtain ⟨_, target, _, _, _, far, _⟩ :=
      (Slot.promotion?_eq_some_iff (sound.sound_slot found) (getElem?_sizes found)).mp promoted
    have bound := gap_le_sum (sizes slots) index target.index
    omega

/-- **As many passes as slots are enough**, if the slots that can be made long have small and even
lengths. -/
theorem exists_settled (sound : Sound slots)
    (regular : ∀ slot ∈ slots, slot.canGrow = true → 2 ∣ slot.size ∧ slot.size ≤ 8) :
    ∃ count < max slots.length 1, Settled (pass^[count] slots) := by
  by_cases full : slots.length ≤ room slots
  · have grows := canGrow_of_room full
    by_cases settled : Settled slots
    · exact ⟨0, by omega, settled⟩
    · have several : 1 < slots.length := by
        by_contra single
        exact settled (settled_of_length_le_one sound (Nat.le_of_not_lt single)
          fun slot member => (regular slot member (grows slot member)).2)
      by_cases single : (sizes (pass slots)).sum ≤ (sizes slots).sum + 1
      · exact ⟨1, by omega, settled_pass_of_even sound
          (fun slot member => (regular slot member (grows slot member)).1) single⟩
      · -- the pass made two branches long, so there is room for two passes less
        obtain ⟨count, within, reached⟩ := exists_settled_of_room sound.pass
        have balance := size_add_room_pass sound
        have bound := room_le_length slots
        exact ⟨count + 1, by omega, reached⟩
  · obtain ⟨count, within, reached⟩ := exists_settled_of_room sound
    exact ⟨count, by omega, reached⟩

end Layout

/-! ### Scripts -/

namespace Script

theorem exists_settled_slots (config : AssemblyConfig) (script : Script) :
    ∃ count < max script.size 1, Settled (pass^[count] (script.slots config)) := by
  have regular : ∀ slot ∈ script.slots config, slot.canGrow = true →
      2 ∣ slot.size ∧ slot.size ≤ 8 := by
    intro slot member grows
    obtain ⟨index, found⟩ := List.mem_iff_getElem?.mp member
    rw [getElem?_slots] at found
    obtain ⟨instruction, _, rfl⟩ := Option.map_eq_some_iff.mp found
    exact Slot.size_prepare grows
  have enough := exists_settled (script.sound_slots config) regular
  rwa [length_slots] at enough

/-- Without a limit of its own, a script settles in as many passes as it has instructions. -/
theorem exists_layout (script : Script) (config : AssemblyConfig)
    (unlimited : config.maxPasses = none) :
    ∃ layout, settle (passLimit config script.size) 0 (script.slots config) = some layout ∧
      layout.passes ≤ max script.size 1 := by
  have enough := script.exists_settled_slots config
  obtain ⟨within, reached⟩ := Nat.find_spec enough
  have first : ∀ earlier < Nat.find enough, ¬Settled (pass^[earlier] (script.slots config)) := by
    intro earlier before settled
    exact Nat.find_min enough before ⟨Nat.lt_trans before within, settled⟩
  have limit : passLimit config script.size = max script.size 1 := by
    rw [passLimit, unlimited, Option.getD_none]
  refine ⟨_, settle_eq_some_iff.mpr ⟨Nat.find enough, ?_, reached, first, rfl⟩, ?_⟩
  · rwa [limit]
  · simp only
    omega

theorem passes_of_build {config : AssemblyConfig} {script : Script} {layout : Layout}
    {assembly : Assembly}
    (settled : settle (passLimit config script.size) 0 (script.slots config) = some layout)
    (built : script.build config = .ok assembly) : assembly.passes = layout.passes := by
  obtain ⟨own, same, _, _, _, written⟩ := build_eq_ok_iff.mp built
  rw [settled] at same
  cases same
  obtain ⟨_, _, result⟩ := Traversal.bind_eq_ok_iff.mp written
  cases result
  rfl

theorem passes_le_passLimit {config : AssemblyConfig} {script : Script} {assembly : Assembly}
    (built : script.build config = .ok assembly) :
    assembly.passes ≤ passLimit config script.size := by
  obtain ⟨layout, settled, _⟩ := build_eq_ok_iff.mp built
  obtain ⟨count, within, _, _, rfl⟩ := settle_eq_some_iff.mp settled
  rw [passes_of_build settled built]
  simp only
  omega

/-- An assembled script took no more passes than it has instructions, whatever the limit was. -/
theorem passes_le_of_build {config : AssemblyConfig} {script : Script} {assembly : Assembly}
    (built : script.build config = .ok assembly) : assembly.passes ≤ max script.size 1 := by
  obtain ⟨layout, settled, _⟩ := build_eq_ok_iff.mp built
  obtain ⟨count, _, _, first, rfl⟩ := settle_eq_some_iff.mp settled
  obtain ⟨enough, within, reached⟩ := script.exists_settled_slots config
  have earliest : count ≤ enough := by
    by_contra behind
    exact first enough (Nat.lt_of_not_le behind) reached
  rw [passes_of_build settled built]
  simp only
  omega

/-- **As many passes as instructions are enough**, whatever the script: its slots settle, no
diagnostic says that they did not, and an assembled script took no more passes. -/
theorem settles_within_size (script : Script) (origin : Origin) (flipJumps : Bool) :
    (∃ layout, settle (passLimit { flipJumps, maxPasses := none } script.size) 0
        (script.slots { flipJumps, maxPasses := none }) = some layout ∧
      layout.passes ≤ max script.size 1) ∧
    (∀ diagnostics, script.assemble origin { flipJumps, maxPasses := none } = .error diagnostics →
      ∀ diagnostic ∈ diagnostics, ∀ passes, diagnostic.fault ≠ .didNotSettle passes) ∧
    (∀ assembly, script.assemble origin { flipJumps, maxPasses := none } = .ok assembly →
      assembly.passes ≤ max script.size 1) := by
  obtain ⟨layout, settled, few⟩ := script.exists_layout { flipJumps, maxPasses := none } rfl
  refine ⟨⟨layout, settled, few⟩, ?_, ?_⟩
  · intro diagnostics failed diagnostic member passes same
    unfold assemble at failed
    cases built : script.build { flipJumps, maxPasses := none } with
    | ok assembly =>
      rw [built] at failed
      cases failed
    | error found =>
      rw [built] at failed
      cases failed
      obtain ⟨finding, among, rfl⟩ := List.mem_map.mp member
      have harmless := isFatal_of_build settled built finding among
      simp only at same
      rw [same] at harmless
      cases harmless
  · intro assembly assembled
    rw [passes_of_build settled (assemble_eq_ok_iff.mp assembled)]
    exact few

end Script

end SceneScript
