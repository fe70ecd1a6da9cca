/-
**Layout: where each slot starts, and which branches have to be long.**

All branches start short. A pass measures them against the current offsets and makes those long
whose label is out of reach; then the next pass runs. Slots only grow, so the passes come to an end.

* `Layout.startOffsets` are the places of the slots, and the end.
* `Slot.distance` is what a short branch has to hold, `Slot.promotion?` the long form that it needs.
* `Layout.settle` runs passes until one changes nothing, or until none is left.
-/

import SceneScript.Assembly.Slot

namespace SceneScript

namespace Layout

/-- The place of each slot, given the lengths, and then the end. -/
def startOffsets (sizes : List Nat) : Array Nat :=
  let (starts, total) := sizes.foldl (fun (starts, start) size => (starts.push start, start + size))
    (#[], 0)
  starts.push total

end Layout

namespace Slot

/-- The distance from the end of a branch to its label, counted in the direction of the branch. -/
def distance (offsets : Array Nat) (index : Nat) (slot : Slot) (target : Target) : Int :=
  let next : Int := (offsets.getD index 0 + slot.size : Nat)
  let destination : Int := offsets.getD target.index 0
  if target.backward then next - destination else destination - next

/-- Whether a short branch can hold a distance. -/
def inShortRange (distance : Int) : Bool := 0 ≤ distance && distance ≤ 255

/-- Whether a branch is short and its label is too far away for it. -/
def outOfReach (offsets : Array Nat) (index : Nat) (slot : Slot) : Bool :=
  match slot.opcode, slot.target with
  | some opcode, some target =>
    !opcode.flow.isLong && !inShortRange (slot.distance offsets index target)
  | _, _ => false

/-- The long form that a branch has and needs. -/
def promotion? (offsets : Array Nat) (index : Nat) (slot : Slot) : Option Opcode :=
  if slot.outOfReach offsets index then slot.opcode.bind Opcode.longTwin? else none

/-- A slot after a pass: with the long form, if it needs one. -/
def promote (offsets : Array Nat) (index : Nat) (slot : Slot) : Slot :=
  match slot.promotion? offsets index with
  | some long => { slot with opcode := some long, size := slot.size + 1 }
  | none => slot

end Slot

/-- Slots whose widths are final. -/
structure Layout where
  slots : List Slot
  /-- The place of each slot, and then the end. -/
  offsets : Array Nat
  passes : Nat

namespace Layout

/-- Runs at most `budget` passes, after `done` earlier ones; none if the last of them still changed
a slot. -/
def settle : (budget done : Nat) → List Slot → Option Layout
  | 0, _, _ => none
  | budget + 1, done, slots =>
    let offsets := Layout.startOffsets (slots.map Slot.size)
    if slots.zipIdx.any fun (slot, index) => (slot.promotion? offsets index).isSome then
      settle budget (done + 1) (slots.mapIdx fun index slot => slot.promote offsets index)
    else some { slots, offsets, passes := done + 1 }

/-- The number of passes allowed for a script of `size` instructions. -/
def passLimit (config : AssemblyConfig) (size : Nat) : Nat := config.maxPasses.getD (max size 1)

/-- The length of the script in bytes. -/
def total (layout : Layout) : Nat := layout.offsets.back?.getD 0

end Layout

end SceneScript
