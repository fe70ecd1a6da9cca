/-
**The two searches for variables.**

A query for a variable asks of each instruction whether it uses it; `Scene.allVars` lists every use.
Both read the same pairs of a bank and an address (`Instruction.varRefs`): the query looks for one,
and the list keeps all that can be variables. They agree on where a variable is used, and a bank
that no selector can name is used nowhere.

* `eraseDups_flatMap`: items that each repeat one key, without the repetitions;
* `bank_le_of_mem_varRefs`: the banks of an instruction are at most 15;
* `accepts_var_iff`, `usesOf_eq`: a query looks for a pair that names its variable, and the listed
  uses are all such pairs;
* `findAll_var_eq`: what a query finds is where the listed uses are, without repetitions.
-/

import SceneScript.Proofs.Stepping

namespace SceneScript

/-- If each item gives only copies of its own key, and keys are different, then what is left without
repetitions are the keys of the items that give any. -/
theorem eraseDups_flatMap {α β : Type} [BEq β] [LawfulBEq β] {key : α → β} {copies : α → List β}
    {items : List α} (own : ∀ item, ∀ copy ∈ copies item, copy = key item)
    (distinct : (items.map key).Nodup) :
    (items.flatMap copies).eraseDups =
      (items.filter fun item => !(copies item).isEmpty).map key := by
  induction items with
  | nil => rfl
  | cons item rest ih =>
    obtain ⟨fresh, distinct⟩ := List.nodup_cons.mp distinct
    have apart : (rest.flatMap copies).removeAll (copies item) = rest.flatMap copies := by
      refine List.filter_eq_self.mpr fun copy member => ?_
      obtain ⟨other, among, member⟩ := List.mem_flatMap.mp member
      have shared : copy ∉ copies item := by
        intro shared
        refine fresh (List.mem_map.mpr ⟨other, among, ?_⟩)
        rw [← own item copy shared, own other copy member]
      simpa using shared
    rw [List.flatMap_cons, List.eraseDups_append, apart, ih distinct]
    cases given : copies item with
    | nil => simp [given]
    | cons copy others =>
      have single : (copy :: others).eraseDups = [key item] := by
        have same := own item
        rw [given, List.forall_mem_cons] at same
        rw [List.eraseDups_cons, same.1, List.filter_eq_nil_iff.mpr, List.eraseDups_nil]
        intro other member
        simp [same.2 other member]
      simp [single, given]

namespace Instruction

variable {instruction : Instruction}

theorem selector_le {bank : UInt8} {value : Int64} (member : bank ∈ selectors value) :
    bank ≤ 15 := by
  have byte : (value.toInt % 256).toNat < 256 := by omega
  have small {half : Nat} (less : half < 16) : half.toUInt8 ≤ 15 := by
    have value : half.toUInt8.toNat = half :=
      UInt8.toNat_ofNat_of_lt (Nat.lt_trans less (by decide))
    rw [UInt8.le_iff_toNat_le, value]
    exact Nat.le_of_lt_succ less
  simp only [selectors, List.mem_cons, List.not_mem_nil, or_false] at member
  rcases member with rfl | rfl
  · exact small (by omega)
  · exact small (by omega)

/-- **The banks of an instruction are at most 15.** -/
theorem bank_le_of_mem_varRefs {ref : UInt8 × Int64} (member : ref ∈ instruction.varRefs) :
    ref.1 ≤ 15 := by
  obtain ⟨⟨⟨shape, operand⟩, place⟩, _, found⟩ := List.mem_filterMap.mp member
  obtain ⟨bank, listed, found⟩ := Option.bind_eq_some_iff.mp found
  obtain ⟨value, _, same⟩ := Option.bind_eq_some_iff.mp found
  cases same
  obtain ⟨byte, _, selected⟩ := List.mem_flatMap.mp (List.mem_of_getElem? listed)
  exact selector_le selected

theorem varRefs_of_unknown (unknown : instruction.opcode? = none) : instruction.varRefs = [] := by
  simp [varRefs, shapedOperands, unknown]

/-- The pairs of a bank and an address that name a variable. Bank 0 marks literals, so that no pair
with it does. -/
def uses (instruction : Instruction) (bank address : UInt8) : List (UInt8 × Int64) :=
  instruction.varRefs.filter fun ref =>
    bank ≠ 0 ∧ ref.1 = bank ∧ ref.2.toInt = (address.toNat : Int)

theorem uses_ne_nil_iff {bank address : UInt8} :
    instruction.uses bank address ≠ [] ↔
      bank ≠ 0 ∧ ∃ ref ∈ instruction.varRefs, ref.1 = bank ∧ ref.2.toInt = address.toNat := by
  rw [uses, ne_eq, List.filter_eq_nil_iff]
  push Not
  constructor
  · rintro ⟨ref, member, named⟩
    obtain ⟨used, own, same⟩ := of_decide_eq_true named
    exact ⟨used, ref, member, own, same⟩
  · rintro ⟨used, ref, member, own, same⟩
    exact ⟨ref, member, decide_eq_true ⟨used, own, same⟩⟩

end Instruction

/-- **A query for a variable finds the instructions that use it.** -/
theorem Query.accepts_var_iff {bank address : UInt8} {instruction : Instruction} :
    Query.accepts (.var bank address none) instruction = true ↔
      instruction.uses bank address ≠ [] := by
  rw [Instruction.uses_ne_nil_iff, Query.accepts]
  cases known : instruction.opcode? with
  | none => simp [Instruction.varRefs_of_unknown known]
  | some row => simp [Query.equals]

namespace Scene

/-- The locations of all listed uses of a variable, with repetitions. -/
def usesOf (scene : Scene) (bank address : UInt8) : List Location :=
  (scene.allVars.filter fun use => use.1 = bank ∧ use.2.1 = address.toUInt16).map (·.2.2)

variable {scene : Scene} {bank address : UInt8}

/-- A listed use has the bank and the address of a variable if its pair names the variable. -/
theorem listed_iff {own : UInt8} {value : Int64} :
    (own ≠ 0 ∧ 0 ≤ value.toInt ∧ value.toInt < 65536) ∧
        own = bank ∧ value.toInt.toNat.toUInt16 = address.toUInt16 ↔
      bank ≠ 0 ∧ own = bank ∧ value.toInt = (address.toNat : Int) := by
  have bound := address.toNat_lt
  have same : value.toInt.toNat.toUInt16 = address.toUInt16 ↔
      value.toInt.toNat % 65536 = address.toNat := by
    rw [← UInt16.toNat_inj, UInt8.toNat_toUInt16, Nat.toUInt16_eq, UInt16.toNat_ofNat']
  rw [same]
  constructor
  · rintro ⟨⟨used, positive, small⟩, rfl, equal⟩
    exact ⟨used, rfl, by omega⟩
  · rintro ⟨used, rfl, equal⟩
    exact ⟨⟨used, by omega, by omega⟩, rfl, by omega⟩

/-- The listed uses are the pairs of a bank and an address that name the variable. -/
theorem usesOf_eq (scene : Scene) (bank address : UInt8) :
    scene.usesOf bank address = scene.instructions.flatMap fun item =>
      (item.2.uses bank address).map fun _ => item.1 := by
  rw [usesOf, allVars, List.filter_flatMap, List.map_flatMap]
  refine congrArg (List.flatMap · scene.instructions) (funext fun item => ?_)
  rw [Instruction.uses, List.filter_filterMap, List.map_filterMap, ← List.filterMap_eq_map,
    ← List.filterMap_eq_filter, List.filterMap_filterMap]
  refine List.filterMap_congr fun ref _ => ?_
  obtain ⟨own, value⟩ := ref
  have kept : (own != 0 && decide (0 ≤ value.toInt) && decide (value.toInt < 65536)) = true ↔
      own ≠ 0 ∧ 0 ≤ value.toInt ∧ value.toInt < 65536 := by
    simp [and_assoc]
  simp only [Option.guard, ← listed_iff, kept, decide_eq_true_eq]
  by_cases listed : own ≠ 0 ∧ 0 ≤ value.toInt ∧ value.toInt < 65536
  · simp only [if_pos listed, Option.filter_some, decide_eq_true_eq]
    by_cases named : own = bank ∧ value.toInt.toNat.toUInt16 = address.toUInt16
    · rw [if_pos named, if_pos ⟨listed, named⟩]
      rfl
    · rw [if_neg named, if_neg fun both => named both.2]
      rfl
  · rw [if_neg listed, if_neg fun both => listed both.1]
    rfl

/-- Bank 0 marks literals and selectors go up to 15, so that other banks have no uses. -/
theorem usesOf_eq_nil (unnamed : bank = 0 ∨ 15 < bank) : scene.usesOf bank address = [] := by
  rw [usesOf_eq, List.flatMap_eq_nil_iff]
  intro item _
  rw [List.map_eq_nil_iff]
  by_contra named
  obtain ⟨used, ref, member, own, _⟩ := Instruction.uses_ne_nil_iff.mp named
  rcases unnamed with literal | beyond
  · exact used literal
  · have bound := Instruction.bank_le_of_mem_varRefs member
    rw [own] at bound
    exact absurd beyond (UInt8.not_lt.mpr bound)

/-- **The two searches for a variable agree.** A query finds the locations of the listed uses with
its bank and address, in their order and without repetitions. A bank that is 0 or above 15 has
neither matches nor uses. -/
theorem findAll_var_eq (distinct : scene.Distinct) (bank address : UInt8) :
    scene.findAll (.var bank address none) = (scene.usesOf bank address).eraseDups ∧
      (bank = 0 ∨ 15 < bank →
        scene.findAll (.var bank address none) = [] ∧ scene.usesOf bank address = []) := by
  have agree : scene.findAll (.var bank address none) = (scene.usesOf bank address).eraseDups := by
    rw [usesOf_eq, eraseDups_flatMap (fun item copy member => ?_) (nodup_locations distinct),
      findAll]
    · refine congrArg (List.map Prod.fst) (List.filter_congr fun item _ => ?_)
      rw [Bool.eq_iff_iff, Query.accepts_var_iff]
      simp
    · obtain ⟨_, _, same⟩ := List.mem_map.mp member
      exact same.symm
  refine ⟨agree, fun unnamed => ⟨?_, usesOf_eq_nil unnamed⟩⟩
  rw [agree, usesOf_eq_nil unnamed, List.eraseDups_nil]

/-- A scene whose script uses one variable three times, twice in one instruction, and then has a
number that is not an address and one that is too large. -/
def ledger : Scene where
  info := { id := 1, name := "ledger" }
  groups := [
    { id := 4, name := "clerk"
      entries := [
        { script :=
            { id := 7
              instructions := [.scalars 0x80 [0x33, 0x12, 0x12], .scalars 0x80 [0x30, 0x12, 5],
                .scalars 0x81 [0x33, -1, 0x10012]] }
          priority := .highest
          invocation := .asyncWait }] }]

theorem findAll_var_eq_ledger :
    ledger.Distinct ∧
      ledger.usesOf 3 0x12 = [⟨4, 7, 0⟩, ⟨4, 7, 0⟩, ⟨4, 7, 1⟩] ∧
      ledger.findAll (.var 3 0x12 none) = [⟨4, 7, 0⟩, ⟨4, 7, 1⟩] ∧
      ledger.findAll (.var 0x33 0x12 none) = [] ∧ ledger.usesOf 0x33 0x12 = [] := by
  have distinct : ledger.Distinct := ⟨by decide, by decide⟩
  have uses : ledger.usesOf 3 0x12 = [⟨4, 7, 0⟩, ⟨4, 7, 0⟩, ⟨4, 7, 1⟩] := by decide +kernel
  obtain ⟨found, _⟩ := findAll_var_eq distinct 3 0x12
  obtain ⟨_, unused⟩ := findAll_var_eq distinct 0x33 0x12
  rw [uses] at found
  exact ⟨distinct, uses, found.trans (by decide), unused (.inr (by decide))⟩

end Scene

end SceneScript
