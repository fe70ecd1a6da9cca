/-
**Edits of a script, one after the other.**

What a caller can do to a script is an `Edit`. `Script.apply` gives the reply to an edit and the
script that it leaves, and `Script.run` what a sequence of edits leaves.

* `Accepts`, `Refuses`: what an edit leaves if it is accepted, and why it is refused otherwise;
* `accepts_or_refuses`: every edit is one or the other;
* `apply_of_accepts`, `apply_of_refuses`: edits do what these say, and one that is refused leaves
  the script as it was;
* `apply_refused_iff`: an edit is refused for its own reason only.
-/

import SceneScript.Script.Edit

namespace SceneScript

/-- What a caller can do to a script. -/
inductive Edit where
  | push (instruction : Instruction)
  | insert (index : Nat) (instruction : Instruction)
  | remove (index : Nat)
  | move (source destination : Nat)
  /-- Any change to an instruction where it stands. -/
  | replace (index : Nat) (instruction : Instruction)
  | retarget (index target : Nat)
  | addLabel (name : String) (position : Option Nat)
  | mark (name : String)
  | placeLabel (label : Nat) (position : Option Nat)
  | renameLabel (label : Nat) (name : String)
  | renumber (id : UInt8)

/-- What a caller is told about an edit that is accepted. -/
inductive Edit.Reply where
  | done
  /-- There is no instruction to be replaced. -/
  | missing
  | removed (instruction : Instruction)
  /-- The number of a new label. -/
  | added (label : Nat)
deriving DecidableEq

/-- An answer with its reply put among all replies. -/
def Edit.answer {α : Type} (reply : α → Edit.Reply) (answer : Except EditError α × Script) :
    Except EditError Edit.Reply × Script :=
  (answer.1.map reply, answer.2)

namespace Script

/-- The reply to an edit, and the script that it leaves. -/
def apply (script : Script) : Edit → Except EditError Edit.Reply × Script
  | .push instruction => (.ok .done, script.push instruction)
  | .insert index instruction => Edit.answer (fun _ => .done) (script.insert index instruction)
  | .remove index => Edit.answer .removed (script.remove index)
  | .move source destination => Edit.answer (fun _ => .done) (script.move source destination)
  | .replace index instruction =>
    match script.replace? index instruction with
    | some changed => (.ok .done, changed)
    | none => (.ok .missing, script)
  | .retarget index target => Edit.answer (fun _ => .done) (script.retarget index target)
  | .addLabel name position => Edit.answer .added (script.addLabel name position)
  | .mark name => (.ok (.added (script.mark name).1), (script.mark name).2)
  | .placeLabel label position => Edit.answer (fun _ => .done) (script.placeLabel label position)
  | .renameLabel label name => Edit.answer (fun _ => .done) (script.renameLabel label name)
  | .renumber id => (.ok .done, { script with id })

/-- What a sequence of edits leaves. -/
def run (script : Script) (edits : List Edit) : Script :=
  edits.foldl (fun script edit => (script.apply edit).2) script

/-! ### What is accepted and what is refused -/

/-- The edits that a script accepts, with the reply and what they leave. -/
inductive Accepts (script : Script) : Edit → Edit.Reply → Script → Prop
  | push {instruction : Instruction} :
      Accepts script (.push instruction) .done
        { script with instructions := script.instructions ++ [instruction] }
  | insert {index : Nat} {instruction : Instruction} : index ≤ script.size →
      Accepts script (.insert index instruction) .done { script with
        instructions := script.instructions.insertIdx index instruction
        labels := script.labels.map fun label => label.shift (raised index) }
  | remove {index : Nat} {instruction : Instruction} :
      script.instructions[index]? = some instruction →
      Accepts script (.remove index) (.removed instruction) { script with
        instructions := script.instructions.eraseIdx index
        labels := script.labels.map fun label => label.shift (lowered index) }
  | move {source destination : Nat} {instruction : Instruction} :
      script.instructions[source]? = some instruction → destination < script.size →
      Accepts script (.move source destination) .done { script with
        instructions := (script.instructions.eraseIdx source).insertIdx destination instruction }
  | replace {index : Nat} {instruction : Instruction} : index < script.size →
      Accepts script (.replace index instruction) .done
        { script with instructions := script.instructions.set index instruction }
  | missing {index : Nat} {instruction : Instruction} : script.size ≤ index →
      Accepts script (.replace index instruction) .missing script
  | retarget {index target : Nat} {instruction changed : Instruction} :
      target < script.labels.size → script.instructions[index]? = some instruction →
      instruction.retarget? target = some changed →
      Accepts script (.retarget index target) .done
        { script with instructions := script.instructions.set index changed }
  | addLabel {name : String} {position : Option Nat} :
      (∀ place ∈ position, place ≤ script.size) →
      Accepts script (.addLabel name position) (.added script.labels.size) { script with
        labels := script.labels.push { id := script.labels.size, name, position } }
  | mark {name : String} :
      Accepts script (.mark name) (.added script.labels.size) { script with
        labels := script.labels.push
          { id := script.labels.size, name, position := some script.size } }
  | placeLabel {label : Nat} {position : Option Nat} : label < script.labels.size →
      (∀ place ∈ position, place ≤ script.size) →
      Accepts script (.placeLabel label position) .done { script with
        labels := script.labels.modify label fun label => { label with position } }
  | renameLabel {label : Nat} {name : String} : label < script.labels.size →
      Accepts script (.renameLabel label name) .done { script with
        labels := script.labels.modify label fun label => { label with name } }
  | renumber {id : UInt8} : Accepts script (.renumber id) .done { script with id }

/-- The edits that a script refuses, with the first thing that is wrong with them. -/
inductive Refuses (script : Script) : Edit → EditError → Prop
  | insert {index : Nat} {instruction : Instruction} : script.size < index →
      Refuses script (.insert index instruction) (.indexOutOfRange index script.size)
  | remove {index : Nat} : script.size ≤ index →
      Refuses script (.remove index) (.indexOutOfRange index script.size)
  | source {source destination : Nat} : script.size ≤ source →
      Refuses script (.move source destination) (.indexOutOfRange source script.size)
  | destination {source destination : Nat} : source < script.size → script.size ≤ destination →
      Refuses script (.move source destination) (.indexOutOfRange destination script.size)
  | target {index target : Nat} : script.labels.size ≤ target →
      Refuses script (.retarget index target) (.noSuchLabel target)
  | branch {index target : Nat} : target < script.labels.size → script.size ≤ index →
      Refuses script (.retarget index target) (.indexOutOfRange index script.size)
  | plain {index target : Nat} {instruction : Instruction} : target < script.labels.size →
      script.instructions[index]? = some instruction → instruction.retarget? target = none →
      Refuses script (.retarget index target) (.notABranch index)
  | addLabel {name : String} {place : Nat} : script.size < place →
      Refuses script (.addLabel name (some place)) (.indexOutOfRange place script.size)
  | placeLabel {label place : Nat} : script.size < place →
      Refuses script (.placeLabel label (some place)) (.indexOutOfRange place script.size)
  | placed {label : Nat} {position : Option Nat} : (∀ place ∈ position, place ≤ script.size) →
      script.labels.size ≤ label →
      Refuses script (.placeLabel label position) (.noSuchLabel label)
  | renamed {label : Nat} {name : String} : script.labels.size ≤ label →
      Refuses script (.renameLabel label name) (.noSuchLabel label)

variable {script changed : Script} {edit : Edit} {reply : Edit.Reply} {cause : EditError}

/-! ### Positions -/

/-- An instruction is put in at the positions of a script. -/
theorem insert_eq_ok_iff {index : Nat} {instruction : Instruction} :
    script.insert index instruction = (.ok (), changed) ↔
      index ≤ script.size ∧ changed = { script with
        instructions := script.instructions.insertIdx index instruction
        labels := script.labels.map fun label => label.shift (raised index) } := by
  rw [insert]
  by_cases inside : index ≤ script.size
  · rw [if_pos inside, Prod.mk.injEq]
    exact ⟨fun same => ⟨inside, same.2.symm⟩, fun same => ⟨rfl, same.2.symm⟩⟩
  · rw [if_neg inside]
    refine ⟨fun same => ?_, fun same => absurd same.1 inside⟩
    cases same

theorem misplaced?_of_inside {position : Option Nat}
    (inside : ∀ place ∈ position, place ≤ script.size) : script.misplaced? position = none := by
  refine Option.filter_eq_none_iff.mpr fun place placed => ?_
  simpa using inside place placed

theorem misplaced?_of_outside {place : Nat} (outside : script.size < place) :
    script.misplaced? (some place) = some place :=
  Option.filter_eq_some_iff.mpr ⟨rfl, decide_eq_true outside⟩

/-- A position is at most the end, or it is behind it. -/
theorem inside_or_outside (script : Script) (position : Option Nat) :
    (∀ place ∈ position, place ≤ script.size) ∨
      ∃ place, position = some place ∧ script.size < place := by
  by_cases inside : ∀ place ∈ position, place ≤ script.size
  · exact .inl inside
  · exact .inr (by simpa using inside)

/-- **Every edit is accepted or refused.** -/
theorem accepts_or_refuses (script : Script) (edit : Edit) :
    (∃ reply changed, script.Accepts edit reply changed) ∨ ∃ cause, script.Refuses edit cause := by
  cases edit with
  | push instruction => exact .inl ⟨_, _, .push⟩
  | insert index instruction =>
    by_cases inside : index ≤ script.size
    · exact .inl ⟨_, _, .insert inside⟩
    · exact .inr ⟨_, .insert (Nat.lt_of_not_le inside)⟩
  | remove index =>
    by_cases inside : index < script.size
    · exact .inl ⟨_, _, .remove (List.getElem?_eq_getElem inside)⟩
    · exact .inr ⟨_, .remove (Nat.le_of_not_lt inside)⟩
  | move source destination =>
    by_cases inside : source < script.size
    · by_cases inside' : destination < script.size
      · exact .inl ⟨_, _, .move (List.getElem?_eq_getElem inside) inside'⟩
      · exact .inr ⟨_, .destination inside (Nat.le_of_not_lt inside')⟩
    · exact .inr ⟨_, .source (Nat.le_of_not_lt inside)⟩
  | replace index instruction =>
    by_cases inside : index < script.size
    · exact .inl ⟨_, _, .replace inside⟩
    · exact .inl ⟨_, _, .missing (Nat.le_of_not_lt inside)⟩
  | retarget index target =>
    by_cases known : target < script.labels.size
    · by_cases inside : index < script.size
      · have found := List.getElem?_eq_getElem inside
        cases linked : script.instructions[index].retarget? target with
        | none => exact .inr ⟨_, .plain known found linked⟩
        | some changed => exact .inl ⟨_, _, .retarget known found linked⟩
      · exact .inr ⟨_, .branch known (Nat.le_of_not_lt inside)⟩
    · exact .inr ⟨_, .target (Nat.le_of_not_lt known)⟩
  | addLabel name position =>
    rcases script.inside_or_outside position with inside | ⟨place, rfl, outside⟩
    · exact .inl ⟨_, _, .addLabel inside⟩
    · exact .inr ⟨_, .addLabel outside⟩
  | mark name => exact .inl ⟨_, _, .mark⟩
  | placeLabel label position =>
    rcases script.inside_or_outside position with inside | ⟨place, rfl, outside⟩
    · by_cases known : label < script.labels.size
      · exact .inl ⟨_, _, .placeLabel known inside⟩
      · exact .inr ⟨_, .placed inside (Nat.le_of_not_lt known)⟩
    · exact .inr ⟨_, .placeLabel outside⟩
  | renameLabel label name =>
    by_cases known : label < script.labels.size
    · exact .inl ⟨_, _, .renameLabel known⟩
    · exact .inr ⟨_, .renamed (Nat.le_of_not_lt known)⟩
  | renumber id => exact .inl ⟨_, _, .renumber⟩

/-! ### What is left -/

/-- An edit that is accepted leaves what was said. -/
theorem apply_of_accepts (accepts : script.Accepts edit reply changed) :
    script.apply edit = (.ok reply, changed) := by
  cases accepts with
  | push => rfl
  | insert inside =>
    rw [apply, insert_eq_ok_iff.mpr ⟨inside, rfl⟩]
    rfl
  | remove found =>
    rw [apply, remove, found]
    rfl
  | move found inside =>
    simp only [apply, move, found, if_pos inside]
    rfl
  | replace inside => rw [apply, replace?, if_pos inside]
  | missing outside => rw [apply, replace?, if_neg (Nat.not_lt.mpr outside)]
  | retarget known found linked =>
    simp only [apply, retarget, if_pos known, found, linked]
    rfl
  | addLabel inside =>
    rw [apply, addLabel, misplaced?_of_inside inside]
    rfl
  | mark => rfl
  | placeLabel known inside =>
    simp only [apply, placeLabel, misplaced?_of_inside inside, modifyLabel, if_pos known]
    rfl
  | renameLabel known =>
    simp only [apply, renameLabel, modifyLabel, if_pos known]
    rfl
  | renumber => rfl

/-- **An edit that is refused leaves the script as it was.** -/
theorem apply_of_refuses (refuses : script.Refuses edit cause) :
    script.apply edit = (.error cause, script) := by
  cases refuses with
  | insert outside =>
    rw [apply, insert, if_neg (Nat.not_le.mpr outside)]
    rfl
  | remove outside =>
    rw [apply, remove, List.getElem?_eq_none outside]
    rfl
  | source outside =>
    rw [apply, move, List.getElem?_eq_none outside]
    rfl
  | destination inside outside =>
    simp only [apply, move, List.getElem?_eq_getElem inside, if_neg (Nat.not_lt.mpr outside)]
    rfl
  | target unknown =>
    rw [apply, retarget, if_neg (Nat.not_lt.mpr unknown)]
    rfl
  | branch known outside =>
    simp only [apply, retarget, if_pos known, List.getElem?_eq_none outside]
    rfl
  | plain known found unlinked =>
    simp only [apply, retarget, if_pos known, found, unlinked]
    rfl
  | addLabel outside =>
    rw [apply, addLabel, misplaced?_of_outside outside]
    rfl
  | placeLabel outside =>
    rw [apply, placeLabel, misplaced?_of_outside outside]
    rfl
  | placed inside unknown =>
    simp only [apply, placeLabel, misplaced?_of_inside inside, modifyLabel,
      if_neg (Nat.not_lt.mpr unknown)]
    rfl
  | renamed unknown =>
    simp only [apply, renameLabel, modifyLabel, if_neg (Nat.not_lt.mpr unknown)]
    rfl

theorem apply_refused_iff : (script.apply edit).1 = .error cause ↔ script.Refuses edit cause := by
  refine ⟨fun refused => ?_, fun refuses => by rw [apply_of_refuses refuses]⟩
  rcases script.accepts_or_refuses edit with ⟨_, _, accepts⟩ | ⟨_, refuses⟩
  · rw [apply_of_accepts accepts] at refused
    cases refused
  · rw [apply_of_refuses refuses] at refused
    cases refused
    exact refuses

end Script

end SceneScript
