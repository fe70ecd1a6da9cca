/-
**The catalogue: what its rows have in common.**

A branch row lists the shapes of its other operands and then the destination, in the shape of its
width; any other row has no destination. So a row is known up to width and direction by its
`leading` shapes and its `Flow.normal` flow, and both can be read off its canonical code:

* `ofCode?_code`: a row is found under its own code;
* `shapes_eq`: the shapes of a row are its leading shapes and the shape of its destination;
* `branchOperand?_eq_some_iff`: no other operand has the shape of a destination;
* `family_mem`, `longTwin?_mem`, `reversed?_mem`: the short form, the long form and the other
  direction of a row are rows again, with the same leading shapes and the same canonical code;
* `leading_eq_of_kin`, `normal_eq_of_kin`, `longTwin?_isSome_of_kin`: rows with one canonical code
  have the same leading shapes and the same normal flow, and if one of them is long, the others have
  a long form;
* `eq_of_kin`: the canonical code, the width and the direction determine a row;
* `fixedSize?_of_longTwin?`: a branch with a long form has a small and even length.
-/

import SceneScript.Script
import Mathlib.Data.List.Chain
import Mathlib.Data.List.Nodup

namespace SceneScript

/-- The shape of the destination in a branch of a given width. -/
def BranchWidth.shape : BranchWidth → Shape
  | short => .shortBranch
  | long => .longBranch

/-- The number of bytes of the destination in a branch of a given width. -/
def BranchWidth.bytes : BranchWidth → Nat
  | short => 1
  | long => 2

namespace Flow

/-- The flow in another width. -/
def resize (width : BranchWidth) : Flow → Flow
  | conditional _ => conditional width
  | jump direction _ => jump direction width
  | flow => flow

/-- The flow in the other direction. -/
def reverse : Flow → Flow
  | jump .forward width => jump .backward width
  | jump .backward width => jump .forward width
  | flow => flow

/-- The flow with its width and direction forgotten. -/
def normal : Flow → Flow
  | conditional _ => conditional .short
  | jump _ _ => jump .forward .short
  | flow => flow

/-- The number of bytes of the destination. -/
def destinationSize (flow : Flow) : Nat := (flow.width?.map BranchWidth.bytes).getD 0

theorem hasTarget_normal (flow : Flow) : flow.normal.hasTarget = flow.hasTarget := by
  cases flow <;> rfl

theorem isConditional_normal (flow : Flow) : flow.normal.isConditional = flow.isConditional := by
  cases flow <;> rfl

/-- A branch that is no jump is conditional. -/
theorem isJump_of_hasTarget {flow : Flow} (branches : flow.hasTarget = true)
    (always : flow.isConditional = false) : flow.isJump = true := by
  cases flow with
  | conditional _ => cases always
  | jump _ _ => rfl
  | next => cases branches
  | call => cases branches
  | ret => cases branches

/-- Only jumps go backward. -/
theorem isBackward_of_isConditional {flow : Flow} (conditional : flow.isConditional = true) :
    flow.isBackward = false := by
  cases flow <;> first | rfl | cases conditional

theorem isConditional_resize (flow : Flow) (width : BranchWidth) :
    (flow.resize width).isConditional = flow.isConditional := by
  cases flow <;> rfl

theorem isJump_resize (flow : Flow) (width : BranchWidth) :
    (flow.resize width).isJump = flow.isJump := by
  cases flow <;> rfl

theorem isBackward_resize (flow : Flow) (width : BranchWidth) :
    (flow.resize width).isBackward = flow.isBackward := by
  cases flow with
  | jump direction _ => cases direction <;> rfl
  | _ => rfl

theorem isBackward_reverse {flow : Flow} (jumps : flow.isJump = true) :
    flow.reverse.isBackward = !flow.isBackward := by
  cases flow with
  | jump direction _ => cases direction <;> rfl
  | _ => cases jumps

theorem width?_resize {flow : Flow} (branches : flow.hasTarget = true) (width : BranchWidth) :
    (flow.resize width).width? = some width := by
  cases flow <;> first | rfl | cases branches

theorem width?_reverse (flow : Flow) : flow.reverse.width? = flow.width? := by
  cases flow with
  | jump direction _ => cases direction <;> rfl
  | _ => rfl

end Flow

namespace Opcode

open Script (canonicalCode)

/-- The shapes of the operands other than the destination. -/
def leading (opcode : Opcode) : List Shape := opcode.shapes.filter fun shape => !shape.isBranch

variable {opcode other : Opcode} {code : UInt8}

theorem not_isBranch_of_mem_leading {shape : Shape} (member : shape ∈ opcode.leading) :
    shape.isBranch = false := by
  simpa using (List.mem_filter.mp member).2

/-! ### Finding rows -/

theorem mem_of_ofCode? (found : ofCode? code = some opcode) : opcode ∈ catalogue :=
  List.mem_of_find?_eq_some found

theorem mem_of_ofMnemonic? {mnemonic : String} (found : ofMnemonic? mnemonic = some opcode) :
    opcode ∈ catalogue := by
  unfold ofMnemonic? at found
  exact List.mem_of_find?_eq_some found

theorem code_of_ofCode? (found : ofCode? code = some opcode) : opcode.code = code := by
  have matched := List.find?_some found
  exact eq_of_beq matched

/-- The rows stand in the order of their codes. -/
theorem catalogue_sorted : (catalogue.map fun opcode => opcode.code.toNat).IsChain (· < ·) := by
  decide +kernel

/-- A code stands in one row only. -/
theorem eq_of_code_eq (member : opcode ∈ catalogue) (member' : other ∈ catalogue)
    (same : opcode.code = other.code) : opcode = other := by
  have distinct : (catalogue.map fun opcode => opcode.code.toNat).Nodup :=
    (List.isChain_iff_pairwise.mp catalogue_sorted).imp Nat.ne_of_lt
  exact List.inj_on_of_nodup_map distinct member member' (congrArg UInt8.toNat same)

/-- **A row is found under its own code.** -/
theorem ofCode?_code (member : opcode ∈ catalogue) : ofCode? opcode.code = some opcode := by
  cases found : ofCode? opcode.code with
  | none =>
    have missed := List.find?_eq_none.mp found opcode member
    simp at missed
  | some row => rw [eq_of_code_eq (mem_of_ofCode? found) member (code_of_ofCode? found)]

/-! ### The shapes of a row -/

/-- **The shapes of a row**: the leading ones, and then the destination, if there is one. -/
theorem shapes_eq (member : opcode ∈ catalogue) :
    opcode.shapes = opcode.leading ++ (opcode.flow.width?.map BranchWidth.shape).toList := by
  have rows : ∀ row ∈ catalogue,
      row.shapes = row.leading ++ (row.flow.width?.map BranchWidth.shape).toList := by
    decide +kernel
  exact rows opcode member

theorem shapes_of_branch (member : opcode ∈ catalogue) {width : BranchWidth}
    (branches : opcode.flow.width? = some width) :
    opcode.shapes = opcode.leading ++ [width.shape] := by
  have shapes := shapes_eq member
  rw [branches] at shapes
  exact shapes

theorem shapes_of_plain (member : opcode ∈ catalogue) (plain : opcode.flow.width? = none) :
    opcode.shapes = opcode.leading := by
  have shapes := shapes_eq member
  rw [plain] at shapes
  simpa using shapes

/-- The destination is the operand behind the leading ones. -/
theorem branchOperand?_eq (member : opcode ∈ catalogue) :
    opcode.branchOperand? = opcode.flow.width?.map fun _ => opcode.leading.length := by
  have rows : ∀ row ∈ catalogue,
      row.branchOperand? = row.flow.width?.map fun _ => row.leading.length := by
    decide +kernel
  exact rows opcode member

/-- The destination is the only operand with the shape of one. -/
theorem branchOperand?_eq_some_iff (member : opcode ∈ catalogue) {place : Nat} :
    opcode.branchOperand? = some place ↔
      ∃ shape, opcode.shapes[place]? = some shape ∧ shape.isBranch = true := by
  constructor
  · intro found
    obtain ⟨inside, branches, _⟩ := List.findIdx?_eq_some_iff_getElem.mp found
    exact ⟨_, List.getElem?_eq_getElem inside, branches⟩
  · rintro ⟨shape, located, branches⟩
    rw [branchOperand?_eq member]
    have leadingless : shape ∉ opcode.leading := fun leads => by
      rw [not_isBranch_of_mem_leading leads] at branches
      cases branches
    cases width : opcode.flow.width? with
    | none =>
      rw [shapes_of_plain member width] at located
      exact absurd (List.mem_of_getElem? located) leadingless
    | some own =>
      rw [shapes_of_branch member width] at located
      rcases Nat.lt_or_ge place opcode.leading.length with before | behind
      · rw [List.getElem?_append_left before] at located
        exact absurd (List.mem_of_getElem? located) leadingless
      · rw [List.getElem?_append_right behind] at located
        have inside := (List.getElem?_eq_some_iff.mp located).1
        rw [List.length_singleton] at inside
        show some opcode.leading.length = some place
        rw [show opcode.leading.length = place by omega]

/-! ### Rows with one canonical code -/

theorem family_of_plain (plain : opcode.flow.hasTarget = false) : opcode.family = opcode := by
  have short : opcode.flow.isLong = false := by
    cases flow : opcode.flow <;> simp_all [Flow.hasTarget, Flow.width?, Flow.isLong]
  simp [family, shortTwin?, short]

theorem canonicalCode_of_plain (plain : opcode.flow.hasTarget = false) :
    canonicalCode opcode = opcode.code := by
  have still : opcode.flow.isJump = false := by
    cases flow : opcode.flow <;> simp_all [Flow.hasTarget, Flow.width?, Flow.isJump]
  simp [canonicalCode, family_of_plain plain, still]

/-- **The row of a canonical code** has the leading shapes of the rows that it stands for and their
normal flow; it has a long form if one of them is long or has a long form. -/
theorem exists_canonical (member : opcode ∈ catalogue) :
    ∃ row, ofCode? (canonicalCode opcode) = some row ∧ row.leading = opcode.leading ∧
      row.flow = opcode.flow.normal ∧
      row.longTwin?.isSome = (opcode.flow.isLong || opcode.longTwin?.isSome) := by
  cases branches : opcode.flow.hasTarget with
  | true =>
    have rows : ∀ opcode ∈ catalogue, opcode.flow.hasTarget = true →
        ∃ row ∈ ofCode? (canonicalCode opcode), row.leading = opcode.leading ∧
          row.flow = opcode.flow.normal ∧
          row.longTwin?.isSome = (opcode.flow.isLong || opcode.longTwin?.isSome) := by
      decide +kernel
    exact rows opcode member branches
  | false =>
    refine ⟨opcode, ?_, rfl, ?_, ?_⟩
    · rw [canonicalCode_of_plain branches]
      exact ofCode?_code member
    · cases flow : opcode.flow <;> simp_all [Flow.hasTarget, Flow.width?, Flow.normal]
    · cases flow : opcode.flow <;> simp_all [Flow.hasTarget, Flow.width?, Flow.isLong]

theorem leading_eq_of_kin (member : opcode ∈ catalogue) (member' : other ∈ catalogue)
    (kin : canonicalCode opcode = canonicalCode other) : opcode.leading = other.leading := by
  obtain ⟨row, found, leading, _⟩ := exists_canonical member
  obtain ⟨row', found', leading', _⟩ := exists_canonical member'
  rw [kin, found'] at found
  cases found
  exact leading.symm.trans leading'

theorem normal_eq_of_kin (member : opcode ∈ catalogue) (member' : other ∈ catalogue)
    (kin : canonicalCode opcode = canonicalCode other) :
    opcode.flow.normal = other.flow.normal := by
  obtain ⟨row, found, _, flow, _⟩ := exists_canonical member
  obtain ⟨row', found', _, flow', _⟩ := exists_canonical member'
  rw [kin, found'] at found
  cases found
  exact flow.symm.trans flow'

theorem hasTarget_eq_of_kin (member : opcode ∈ catalogue) (member' : other ∈ catalogue)
    (kin : canonicalCode opcode = canonicalCode other) :
    opcode.flow.hasTarget = other.flow.hasTarget := by
  rw [← Flow.hasTarget_normal, normal_eq_of_kin member member' kin, Flow.hasTarget_normal]

theorem isConditional_eq_of_kin (member : opcode ∈ catalogue) (member' : other ∈ catalogue)
    (kin : canonicalCode opcode = canonicalCode other) :
    opcode.flow.isConditional = other.flow.isConditional := by
  rw [← Flow.isConditional_normal, normal_eq_of_kin member member' kin, Flow.isConditional_normal]

/-- **If one row under a canonical code is long, the short ones have a long form.** -/
theorem longTwin?_isSome_of_kin (member : opcode ∈ catalogue) (member' : other ∈ catalogue)
    (kin : canonicalCode opcode = canonicalCode other) (short : opcode.flow.isLong = false)
    (long : other.flow.isLong = true) : opcode.longTwin?.isSome = true := by
  obtain ⟨row, found, _, _, twin⟩ := exists_canonical member
  obtain ⟨row', found', _, _, twin'⟩ := exists_canonical member'
  rw [kin, found'] at found
  cases found
  rw [twin', short, long] at twin
  simpa using twin.symm

/-- **The canonical code, the width and the direction determine the row.** -/
theorem eq_of_kin (member : opcode ∈ catalogue) (member' : other ∈ catalogue)
    (kin : canonicalCode opcode = canonicalCode other)
    (width : opcode.flow.isLong = other.flow.isLong)
    (side : opcode.flow.isBackward = other.flow.isBackward) : opcode = other := by
  have targets := hasTarget_eq_of_kin member member' kin
  cases branches : opcode.flow.hasTarget with
  | false =>
    rw [branches] at targets
    rw [canonicalCode_of_plain branches, canonicalCode_of_plain targets.symm] at kin
    exact eq_of_code_eq member member' kin
  | true =>
    rw [branches] at targets
    have distinct : ((catalogue.filter fun row => row.flow.hasTarget).map fun row =>
        (canonicalCode row, row.flow.isLong, row.flow.isBackward)).Nodup := by
      decide +kernel
    refine List.inj_on_of_nodup_map distinct (List.mem_filter.mpr ⟨member, branches⟩)
      (List.mem_filter.mpr ⟨member', targets.symm⟩) ?_
    rw [kin, width, side]

/-! ### The other forms of a row -/

theorem family_mem (member : opcode ∈ catalogue) :
    opcode.family ∈ catalogue ∧ opcode.family.flow = opcode.flow.resize .short ∧
      canonicalCode opcode.family = canonicalCode opcode := by
  refine ⟨?_, ?_, ?_⟩
  · unfold family shortTwin?
    split
    · cases twin : opcode.twin.bind ofCode? with
      | none => exact member
      | some row =>
        obtain ⟨code, _, found⟩ := Option.bind_eq_some_iff.mp twin
        exact mem_of_ofCode? found
    · exact member
  · have rows : ∀ row ∈ catalogue, row.family.flow = row.flow.resize .short := by decide +kernel
    exact rows opcode member
  · cases branches : opcode.flow.hasTarget with
    | true =>
      have rows : ∀ row ∈ catalogue, row.flow.hasTarget = true →
          canonicalCode row.family = canonicalCode row := by
        decide +kernel
      exact rows opcode member branches
    | false => rw [family_of_plain branches]

theorem longTwin?_mem (member : opcode ∈ catalogue) (long : opcode.longTwin? = some other) :
    other ∈ catalogue ∧ other.flow = opcode.flow.resize .long ∧
      canonicalCode other = canonicalCode opcode := by
  have rows : ∀ row ∈ catalogue, ∀ twin ∈ row.longTwin?,
      twin.flow = row.flow.resize .long ∧ canonicalCode twin = canonicalCode row := by
    decide +kernel
  refine ⟨?_, rows opcode member other long⟩
  unfold longTwin? at long
  split at long
  · obtain ⟨code, _, found⟩ := Option.bind_eq_some_iff.mp long
    exact mem_of_ofCode? found
  · cases long

theorem reversed?_mem (member : opcode ∈ catalogue) (turned : opcode.reversed? = some other) :
    other ∈ catalogue ∧ other.flow = opcode.flow.reverse ∧
      canonicalCode other = canonicalCode opcode := by
  have rows : ∀ row ∈ catalogue, ∀ turned ∈ row.reversed?,
      turned.flow = row.flow.reverse ∧ canonicalCode turned = canonicalCode row := by
    decide +kernel
  refine ⟨?_, rows opcode member other turned⟩
  unfold reversed? at turned
  split at turned
  · exact List.mem_of_find?_eq_some turned
  · cases turned

theorem reversed?_isSome (member : opcode ∈ catalogue) (jumps : opcode.flow.isJump = true) :
    opcode.reversed?.isSome = true := by
  have rows : ∀ row ∈ catalogue, row.flow.isJump = true → row.reversed?.isSome = true := by
    decide +kernel
  exact rows opcode member jumps

theorem isJump_of_reversed? (turned : opcode.reversed? = some other) :
    opcode.flow.isJump = true := by
  unfold reversed? at turned
  split at turned
  · assumption
  · cases turned

theorem isLong_of_longTwin? (member : opcode ∈ catalogue) (long : opcode.longTwin? = some other) :
    other.flow.isLong = true := by
  have branches : opcode.flow.hasTarget = true := by
    unfold longTwin? at long
    split at long
    · next short => exact (Bool.and_eq_true_iff.mp short).1
    · cases long
  rw [Flow.isLong, (longTwin?_mem member long).2.1, Flow.width?_resize branches]
  rfl

/-- Long branches have no long form. -/
theorem longTwin?_eq_none_of_isLong (long : opcode.flow.isLong = true) :
    opcode.longTwin? = none := by
  simp [longTwin?, long]

/-- **A branch with a long form has a small and even length.** -/
theorem fixedSize?_of_longTwin? (member : opcode ∈ catalogue)
    (long : opcode.longTwin?.isSome = true) :
    ∃ size, opcode.fixedSize? = some size ∧ 2 ∣ size ∧ size ≤ 8 := by
  have rows : ∀ row ∈ catalogue, row.longTwin?.isSome = true →
      ∃ size ∈ row.fixedSize?, 2 ∣ size ∧ size ≤ 8 := by
    decide +kernel
  exact rows opcode member long

end Opcode

end SceneScript
