/-
**Texts cut into pieces.**

Listings are cut at line ends, commas and blanks, and the blanks at the ends of a piece are dropped.
What was joined in one of these ways is taken apart again:

* `splitWhere_append_cons`: a text is cut at every character of a class;
* `trim_eq_self`: a text that neither starts nor ends with a blank stays as it is;
* `words_intercalate`: words with a blank between them are read back;
* `trim_splitWhere_intercalate`: so are pieces with a comma and a blank between them;
* `lines_flatMap`: so are lines with a line feed behind each.
-/

import SceneScript.Text.Blank
import Mathlib.Data.List.Basic

namespace SceneScript.Text

variable {cut : Char → Bool} {c : Char} {text : List Char}

/-! ### Cutting -/

theorem splitWhere_go_eq (cut : Char → Bool) (piece : List Char) (done : List (List Char))
    (text : List Char) :
    splitWhere.go cut piece done text = done.reverse ++ text.splitOnPPrepend cut piece := by
  induction text generalizing piece done with
  | nil => simp [splitWhere.go]
  | cons c rest ih =>
    rw [splitWhere.go]
    cases cuts : cut c with
    | true =>
      rw [if_pos rfl, ih, List.splitOnPPrepend_cons_pos cuts, List.reverse_cons,
        List.append_assoc, List.splitOnPPrepend_nil_right]
      rfl
    | false => rw [if_neg Bool.false_ne_true, ih, List.splitOnPPrepend_cons_neg cuts]

theorem splitWhere_eq (cut : Char → Bool) (text : List Char) :
    splitWhere cut text = text.splitOnP cut :=
  splitWhere_go_eq cut [] [] text

/-- **A text is cut at every character of a class.** -/
theorem splitWhere_append_cons (cuts : cut c = true) (front back : List Char) :
    splitWhere cut (front ++ c :: back) = splitWhere cut front ++ splitWhere cut back := by
  simp only [splitWhere_eq, List.splitOnP_append_cons front back cuts]

theorem splitWhere_eq_singleton (whole : ∀ c ∈ text, cut c = false) :
    splitWhere cut text = [text] := by
  rw [splitWhere_eq, List.splitOnP_eq_singleton whole]

/-! ### Blanks at the ends -/

theorem trimStart_eq_self (first : ∀ c ∈ text.head?, isBlank c = false) :
    trimStart text = text := by
  cases text with
  | nil => rfl
  | cons c rest => rw [trimStart, List.dropWhile_cons_of_neg (by simpa using first c rfl)]

theorem trimEnd_eq_self (last : ∀ c ∈ text.getLast?, isBlank c = false) : trimEnd text = text := by
  have first : ∀ c ∈ text.reverse.head?, isBlank c = false := by
    rw [List.head?_reverse]
    exact last
  show (trimStart text.reverse).reverse = text
  rw [trimStart_eq_self first, List.reverse_reverse]

/-- **A text that neither starts nor ends with a blank stays as it is.** -/
theorem trim_eq_self (first : ∀ c ∈ text.head?, isBlank c = false)
    (last : ∀ c ∈ text.getLast?, isBlank c = false) : trim text = text := by
  rw [trim, trimStart_eq_self first, trimEnd_eq_self last]

/-- A text without blanks stays as it is. -/
theorem trim_of_not_blank (solid : ∀ c ∈ text, isBlank c = false) : trim text = text :=
  trim_eq_self (fun c first => solid c (List.mem_of_mem_head? first))
    (fun c last => solid c (List.mem_of_getLast? last))

theorem trimStart_append {blanks : List Char} (blank : ∀ c ∈ blanks, isBlank c = true)
    (text : List Char) : trimStart (blanks ++ text) = trimStart text :=
  List.dropWhile_append_of_pos blank

theorem trim_append {blanks : List Char} (blank : ∀ c ∈ blanks, isBlank c = true)
    (text : List Char) : trim (blanks ++ text) = trim text := by
  rw [trim, trimStart_append blank, trim]

/-- A blank in front of a text is dropped. -/
theorem trim_cons (blank : isBlank c = true) (text : List Char) : trim (c :: text) = trim text :=
  trim_append (List.forall_mem_singleton.mpr blank) text

/-! ### Words -/

theorem words_append_cons (blank : isBlank c = true) (front back : List Char) :
    words (front ++ c :: back) = words front ++ words back := by
  rw [words, splitWhere_append_cons blank, List.filter_append]
  rfl

theorem words_eq_singleton (some : text ≠ []) (solid : ∀ c ∈ text, isBlank c = false) :
    words text = [text] := by
  rw [words, splitWhere_eq_singleton solid]
  simp [some]

/-- **Words with a blank between them are read back.** -/
theorem words_intercalate (blank : isBlank c = true) {pieces : List (List Char)}
    (solid : ∀ piece ∈ pieces, piece ≠ [] ∧ ∀ c ∈ piece, isBlank c = false) :
    words (List.intercalate [c] pieces) = pieces := by
  induction pieces with
  | nil => rfl
  | cons piece rest ih =>
    obtain ⟨some, own⟩ := solid piece List.mem_cons_self
    have others := ih fun other among => solid other (List.mem_cons_of_mem _ among)
    cases rest with
    | nil => rw [List.intercalate_singleton, words_eq_singleton some own]
    | cons second rest =>
      rw [List.intercalate_cons_cons, List.append_assoc, List.singleton_append,
        words_append_cons blank, others, words_eq_singleton some own]
      rfl

/-! ### Commas -/

/-- Joined pieces are cut at their commas; all but the first keep the blank in front of them. -/
theorem splitWhere_intercalate {pieces : List (List Char)} (front first : List Char)
    (whole : ∀ piece ∈ first :: pieces, ',' ∉ piece) (clear : ',' ∉ front) :
    splitWhere (· == ',') (front ++ List.intercalate [',', ' '] (first :: pieces)) =
      (front ++ first) :: pieces.map (' ' :: ·) := by
  have uncut : ∀ c ∈ front ++ first, (c == ',') = false := by
    intro c among
    refine beq_false_of_ne ?_
    rintro rfl
    rcases List.mem_append.mp among with before | own
    · exact clear before
    · exact whole first List.mem_cons_self own
  -- What stands before the first piece is general: behind a comma it is the blank.
  induction pieces generalizing front first with
  | nil => rw [List.intercalate_singleton, splitWhere_eq_singleton uncut, List.map_nil]
  | cons second rest ih =>
    have others : ∀ piece ∈ second :: rest, ',' ∉ piece :=
      fun piece among => whole piece (List.mem_cons_of_mem _ among)
    have uncut' : ∀ c ∈ [' '] ++ second, (c == ',') = false := by
      intro c among
      refine beq_false_of_ne ?_
      rintro rfl
      exact others second List.mem_cons_self (by simpa using among)
    have split : front ++ List.intercalate [',', ' '] (first :: second :: rest) =
        (front ++ first) ++ ',' :: ([' '] ++ List.intercalate [',', ' '] (second :: rest)) := by
      rw [List.intercalate_cons_cons]
      simp
    rw [split, splitWhere_append_cons (by decide), splitWhere_eq_singleton uncut,
      ih [' '] second others (by decide) uncut']
    rfl

/-- **Pieces with a comma and a blank between them are read back.** -/
theorem trim_splitWhere_intercalate {pieces : List (List Char)} (some : pieces ≠ [])
    (whole : ∀ piece ∈ pieces, ',' ∉ piece ∧ trim piece = piece) :
    (splitWhere (· == ',') (List.intercalate [',', ' '] pieces)).map trim = pieces := by
  obtain ⟨first, rest, rfl⟩ := List.exists_cons_of_ne_nil some
  have pieces := splitWhere_intercalate [] first (fun piece among => (whole piece among).1)
    List.not_mem_nil
  rw [List.nil_append, List.nil_append] at pieces
  have trimmed : ∀ piece ∈ rest, trim (' ' :: piece) = piece := by
    intro piece among
    rw [trim_cons rfl, (whole piece (List.mem_cons_of_mem _ among)).2]
  rw [pieces, List.map_cons, (whole first List.mem_cons_self).2, List.map_map]
  exact congrArg _ ((List.map_congr_left trimmed).trans (List.map_id' rest))

/-! ### Lines -/

/-- **Lines with a line feed behind each are read back.** -/
theorem lines_flatMap {pieces : List (List Char)}
    (whole : ∀ piece ∈ pieces, '\n' ∉ piece ∧ piece.getLast? ≠ some '\r') :
    lines (pieces.flatMap (· ++ ['\n'])) = pieces := by
  have cut : splitWhere (· == '\n') (pieces.flatMap (· ++ ['\n'])) = pieces ++ [[]] := by
    induction pieces with
    | nil => rfl
    | cons piece rest ih =>
      have uncut : ∀ c ∈ piece, (c == '\n') = false := by
        intro c among
        refine beq_false_of_ne ?_
        rintro rfl
        exact (whole piece List.mem_cons_self).1 among
      rw [List.flatMap_cons, List.append_assoc, List.singleton_append,
        splitWhere_append_cons (by decide), splitWhere_eq_singleton uncut,
        ih fun other among => whole other (List.mem_cons_of_mem _ among)]
      rfl
  have kept : pieces.map dropReturn = pieces := by
    refine (List.map_congr_left fun piece among => ?_).trans (List.map_id' pieces)
    rw [dropReturn, if_neg (whole piece among).2]
  simp only [lines, cut, List.getLast?_concat, Option.getD_some, List.dropLast_concat, kept]
  simp

end SceneScript.Text
