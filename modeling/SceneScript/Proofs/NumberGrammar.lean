/-
**Which texts are numbers.**

A number of a listing is written with decimal digits, or with hexadecimal ones behind `0x`, and one
minus sign may stand in front (`Numeral`). The reader takes off the minus sign and hands the rest to
a reader of signed digits. So it takes some more texts, in which the digits carry a sign of their
own (`Resigned`), and it does not take the least number, whose digits alone are too large.

* `readDigits_eq_some_iff`: digits are read as the number that they spell;
* `readSigned_eq_some_iff`, `parseMagnitude_eq_some_iff`: what follows the minus sign may carry
  another sign;
* `framed_iff`: blanks around a number do not count;
* `parseInt64_eq_some_iff`: which texts are read, and as which numbers;
* `parseInt64_follows_iff`: on which texts the reader follows the grammar.
-/

import SceneScript.Proofs.Numerals
import SceneScript.Proofs.Traversal
import Mathlib.Data.List.Induction
import Mathlib.Data.List.TakeWhile
import Mathlib.Data.Nat.Digits.Defs

namespace SceneScript.Text

variable {base n : Nat} {c : Char} {text : List Char} {value : Int} {number : Int64}

/-! ### The grammar -/

/-- A digit of a base as it is written, in either case. -/
def IsDigit (base : Nat) (c : Char) (digit : Nat) : Prop :=
  digit < base ∧ (c = digit.digitChar ∨ c = digit.digitChar.toUpper)

/-- One or more digits of a base, highest first, and the number that they write. -/
def Spells (base : Nat) (text : List Char) (value : Int) : Prop :=
  ∃ digits, digits ≠ [] ∧ List.Forall₂ (IsDigit base) text digits ∧
    value = Nat.ofDigits base digits.reverse

/-- Digits behind a sign. -/
inductive SpellsSigned (base : Nat) : List Char → Int → Prop
  | plus {text : List Char} {value : Int} : Spells base text value →
      SpellsSigned base ('+' :: text) value
  | minus {text : List Char} {value : Int} : Spells base text value →
      SpellsSigned base ('-' :: text) (-value)

/-- Decimal digits, or hexadecimal ones behind their mark. -/
inductive Based (spells : Nat → List Char → Int → Prop) : List Char → Int → Prop
  | decimal {text : List Char} {value : Int} : spells 10 text value → Based spells text value
  | hexadecimal {mark : Char} {text : List Char} {value : Int} : mark = 'x' ∨ mark = 'X' →
      spells 16 text value → Based spells ('0' :: mark :: text) value

/-- A number as it is written: digits, and a minus sign in front if it is negative. -/
inductive Numeral : List Char → Int → Prop
  | plain {text : List Char} {value : Int} : Based Spells text value → Numeral text value
  | minus {text : List Char} {value : Int} : Based Spells text value →
      Numeral ('-' :: text) (-value)

/-- A number in which the digits carry a sign of their own, behind the minus sign in front if there
is one. -/
inductive Resigned : List Char → Int64 → Prop
  | plain {text : List Char} {value : Int64} : text.head? ≠ some '-' →
      Based SpellsSigned text value.toInt → Resigned text value
  | minus {text : List Char} {value : Int64} : Based SpellsSigned text value.toInt →
      Resigned ('-' :: text) (-value)

/-- A text with blanks around it. -/
def Framed (inner : List Char → Prop) (text : List Char) : Prop :=
  ∃ front core back, text = front ++ (core ++ back) ∧ (∀ c ∈ front, isBlank c = true) ∧
    (∀ c ∈ back, isBlank c = true) ∧ inner core

/-! ### Digits -/

/-- The three ranges of characters that are digits. -/
theorem toNat_of_digitValue? {digit : Nat} (value : digitValue? base c = some digit) :
    digit < base ∧ (digit < 10 ∧ c.toNat = 48 + digit ∨
      10 ≤ digit ∧ (c.toNat = 87 + digit ∨ c.toNat = 55 + digit)) := by
  obtain ⟨found, small⟩ := Option.filter_eq_some_iff.mp value
  refine ⟨by simpa using small, ?_⟩
  split at found
  · next inside =>
    have bounds : 48 ≤ c.toNat ∧ c.toNat ≤ 57 := inside
    have own : c.toNat - 48 = digit := Option.some.inj found
    omega
  · split at found
    · next inside =>
      have bounds : 97 ≤ c.toNat ∧ c.toNat ≤ 122 := inside
      have own : c.toNat - 97 + 10 = digit := Option.some.inj found
      omega
    · split at found
      · next inside =>
        have bounds : 65 ≤ c.toNat ∧ c.toNat ≤ 90 := inside
        have own : c.toNat - 65 + 10 = digit := Option.some.inj found
        omega
      · cases found

theorem digitValue?_eq_some_iff (known : base ≤ 16) {digit : Nat} :
    digitValue? base c = some digit ↔ IsDigit base c digit := by
  constructor
  · intro value
    have decimal : ∀ digit < 10, Char.ofNat (48 + digit) = digit.digitChar := by decide
    have lower : ∀ digit < 16, 10 ≤ digit → Char.ofNat (87 + digit) = digit.digitChar := by decide
    have upper : ∀ digit < 16, 10 ≤ digit → Char.ofNat (55 + digit) = digit.digitChar.toUpper := by
      decide
    obtain ⟨small, range⟩ := toNat_of_digitValue? value
    refine ⟨small, ?_⟩
    rw [← Char.ofNat_toNat c]
    rcases range with ⟨below, code⟩ | ⟨above, code | code⟩
    · exact .inl (code ▸ decimal digit below)
    · exact .inl (code ▸ lower digit (by omega) above)
    · exact .inr (code ▸ upper digit (by omega) above)
  · rintro ⟨small, rfl | rfl⟩
    · exact digitValue?_digitChar small (by omega)
    · have value : ∀ digit < 16, digitValue? 36 digit.digitChar.toUpper = some digit := by decide
      exact digitValue?_of_lt (value digit (by omega)) small

/-- One more digit multiplies what was spelled by the base, and adds its own value. -/
theorem foldlM_readDigit_eq_some_iff (known : base ≤ 16) :
    text.foldlM (readDigit base) 0 = some n ↔
      ∃ digits, List.Forall₂ (IsDigit base) text digits ∧ n = Nat.ofDigits base digits.reverse := by
  -- The digits are read from the left, so the induction takes the last one off.
  have more : ∀ (digits : List Nat) digit, Nat.ofDigits base (digits ++ [digit]).reverse =
      Nat.ofDigits base digits.reverse * base + digit := by
    intro digits digit
    rw [List.reverse_concat, Nat.ofDigits_cons, Nat.add_comm, Nat.mul_comm]
  induction text using List.reverseRecOn generalizing n with
  | nil =>
    simp only [List.foldlM_nil, List.forall₂_nil_left_iff]
    constructor
    · intro same
      cases same
      exact ⟨[], rfl, rfl⟩
    · rintro ⟨_, rfl, rfl⟩
      rfl
  | append_singleton text last ih =>
    simp only [List.foldlM_append, Option.bind_eq_bind, Option.bind_eq_some_iff, ih,
      List.foldlM_cons, List.foldlM_nil, Option.pure_def, readDigit, Option.map_eq_some_iff,
      digitValue?_eq_some_iff known, Traversal.forall₂_concat_left_iff]
    constructor
    · rintro ⟨_, ⟨digits, front, rfl⟩, _, ⟨digit, own, rfl⟩, same⟩
      cases same
      exact ⟨digits ++ [digit], ⟨digits, digit, rfl, front, own⟩, (more digits digit).symm⟩
    · rintro ⟨_, ⟨digits, digit, rfl, front, own⟩, rfl⟩
      exact ⟨_, ⟨digits, front, rfl⟩, _, ⟨digit, own, rfl⟩, congrArg some (more digits digit).symm⟩

/-- **Digits are read as the number that they spell.** -/
theorem readDigits_eq_some_iff (known : base ≤ 16) :
    readDigits base text = some n ↔ Spells base text n := by
  by_cases empty : text = []
  · subst empty
    refine iff_of_false (fun read => by cases read) ?_
    rintro ⟨digits, some, own, _⟩
    exact some (List.forall₂_nil_left_iff.mp own)
  · rw [readDigits_eq empty, foldlM_readDigit_eq_some_iff known]
    constructor
    · rintro ⟨digits, own, rfl⟩
      refine ⟨digits, ?_, own, rfl⟩
      rintro rfl
      exact empty (List.forall₂_nil_right_iff.mp own)
    · rintro ⟨digits, _, own, same⟩
      exact ⟨digits, own, Int.ofNat.inj same⟩

/-- What digits alone spell is not negative. -/
theorem Spells.exists_readDigits (known : base ≤ 16) (spelled : Spells base text value) :
    ∃ n : Nat, value = n ∧ readDigits base text = some n := by
  obtain ⟨digits, some, own, rfl⟩ := spelled
  exact ⟨_, rfl, (readDigits_eq_some_iff known).mpr ⟨digits, some, own, rfl⟩⟩

theorem Spells.not_mem (known : base ≤ 16) (spelled : Spells base text value)
    (other : digitValue? base c = none) : c ∉ text := by
  obtain ⟨n, _, read⟩ := spelled.exists_readDigits known
  exact not_mem_of_readDigits read other

/-! ### Signs and marks -/

theorem not_spells_sign (known : base ≤ 16) (sign : c = '-' ∨ c = '+') :
    ¬Spells base (c :: text) value := by
  intro spelled
  refine spelled.not_mem known (digitValue?_eq_none ?_ (by omega)) List.mem_cons_self
  rcases sign with rfl | rfl <;> decide

/-- `readDigits_eq_some_iff` for the digits as an integer. -/
theorem bind_readDigits_eq_some_iff (known : base ≤ 16) :
    (readDigits base text >>= fun n => pure (n : Int)) = some value ↔ Spells base text value := by
  rw [Option.bind_eq_bind, Option.bind_eq_some_iff]
  constructor
  · rintro ⟨n, read, same⟩
    cases same
    exact (readDigits_eq_some_iff known).mp read
  · intro spelled
    obtain ⟨n, rfl, read⟩ := spelled.exists_readDigits known
    exact ⟨n, read, rfl⟩

/-- **Digits are read with or without a sign.** -/
theorem readSigned_eq_some_iff (known : base ≤ 16) :
    readSigned base text = some value ↔ Spells base text value ∨ SpellsSigned base text value := by
  unfold readSigned
  split <;> simp only [Option.map_eq_some_iff, bind_readDigits_eq_some_iff known]
  · constructor
    · rintro ⟨own, spelled, rfl⟩
      exact .inr (.minus spelled)
    · rintro (spelled | ⟨⟨⟩⟩ | ⟨spelled⟩)
      · exact absurd spelled (not_spells_sign known (.inl rfl))
      · exact ⟨_, spelled, rfl⟩
  · constructor
    · rintro ⟨own, spelled, rfl⟩
      exact .inr (.plus spelled)
    · rintro (spelled | ⟨spelled⟩ | ⟨⟨⟩⟩)
      · exact absurd spelled (not_spells_sign known (.inr rfl))
      · exact ⟨_, spelled, rfl⟩
  · next minus plus =>
    constructor
    · rintro ⟨own, spelled, rfl⟩
      exact .inl spelled
    · rintro (spelled | spelled | spelled)
      · exact ⟨_, spelled, rfl⟩
      · exact absurd rfl (plus _)
      · exact absurd rfl (minus _)

section Based

variable {spells : Nat → List Char → Int → Prop} {mark : Char}

theorem based_marked_iff (hexadecimal : mark = 'x' ∨ mark = 'X')
    (odd : ¬spells 10 ('0' :: mark :: text) value) :
    Based spells ('0' :: mark :: text) value ↔ spells 16 text value := by
  constructor
  · intro based
    cases based with
    | decimal spelled => exact absurd spelled odd
    | hexadecimal _ spelled => exact spelled
  · exact .hexadecimal hexadecimal

theorem based_unmarked_iff (lower : ∀ digits, text ≠ '0' :: 'x' :: digits)
    (upper : ∀ digits, text ≠ '0' :: 'X' :: digits) :
    Based spells text value ↔ spells 10 text value := by
  constructor
  · intro based
    cases based with
    | decimal spelled => exact spelled
    | hexadecimal mark _ =>
      rcases mark with rfl | rfl
      · exact absurd rfl (lower _)
      · exact absurd rfl (upper _)
  · exact .decimal

theorem not_spells_mark (hexadecimal : mark = 'x' ∨ mark = 'X') :
    ¬Spells 10 ('0' :: mark :: text) value := by
  intro spelled
  have other : digitValue? 10 mark = none := by rcases hexadecimal with rfl | rfl <;> decide
  exact spelled.not_mem (by decide) other (List.mem_cons_of_mem _ List.mem_cons_self)

theorem not_spellsSigned_mark : ¬SpellsSigned 10 ('0' :: mark :: text) value := by
  rintro ⟨⟩

end Based

theorem bind_int64?_eq_some_iff {read : Option Int} :
    read.bind int64? = some number ↔ read = some number.toInt := by
  rw [Option.bind_eq_some_iff]
  constructor
  · rintro ⟨value, rfl, fits⟩
    unfold int64? at fits
    split at fits
    · next inside =>
      cases fits
      rw [Int64.toInt_ofInt_of_le (by omega) (by omega)]
    · cases fits
  · intro same
    exact ⟨number.toInt, same, int64?_toInt number⟩

/-- **What follows the minus sign may carry another sign.** -/
theorem parseMagnitude_eq_some_iff :
    parseMagnitude text = some number ↔
      Based Spells text number.toInt ∨ Based SpellsSigned text number.toInt := by
  unfold parseMagnitude
  split <;> rw [bind_int64?_eq_some_iff, readSigned_eq_some_iff (by decide)]
  · rw [based_marked_iff (.inl rfl) (not_spells_mark (.inl rfl)),
      based_marked_iff (.inl rfl) not_spellsSigned_mark]
  · rw [based_marked_iff (.inr rfl) (not_spells_mark (.inr rfl)),
      based_marked_iff (.inr rfl) not_spellsSigned_mark]
  · next lower upper => rw [based_unmarked_iff lower upper, based_unmarked_iff lower upper]

/-! ### Blanks around a number -/

theorem trimEnd_append {blanks : List Char} (blank : ∀ c ∈ blanks, isBlank c = true) :
    trimEnd (text ++ blanks) = trimEnd text := by
  rw [trimEnd, List.reverse_append, List.dropWhile_append_of_pos, trimEnd]
  intro c among
  exact blank c (List.mem_reverse.mp among)

/-- Blanks behind a text without blanks are dropped. -/
theorem trim_append_blanks {blanks : List Char} (solid : ∀ c ∈ text, isBlank c = false)
    (blank : ∀ c ∈ blanks, isBlank c = true) : trim (text ++ blanks) = text := by
  cases text with
  | nil =>
    rw [List.nil_append, trim, trimStart, List.dropWhile_eq_nil_iff.mpr blank]
    rfl
  | cons first rest =>
    have start : trimStart (first :: rest ++ blanks) = first :: rest ++ blanks := by
      refine trimStart_eq_self fun c own => ?_
      cases own
      exact solid _ List.mem_cons_self
    rw [trim, start, trimEnd_append blank]
    refine trimEnd_eq_self fun c last => solid c (List.mem_of_mem_getLast? last)

/-- A text is what `trim` leaves of it, with blanks around it. -/
theorem exists_blanks_around (text : List Char) :
    ∃ front back, text = front ++ (trim text ++ back) ∧ (∀ c ∈ front, isBlank c = true) ∧
      ∀ c ∈ back, isBlank c = true := by
  refine ⟨text.takeWhile isBlank, ((trimStart text).reverse.takeWhile isBlank).reverse, ?_,
    fun c => List.mem_takeWhile_imp, fun c among => ?_⟩
  · rw [trim, trimEnd, ← List.reverse_append, List.takeWhile_append_dropWhile,
      List.reverse_reverse, trimStart, List.takeWhile_append_dropWhile]
  · exact List.mem_takeWhile_imp (List.mem_reverse.mp among)

/-- **Blanks around a number do not count.** -/
theorem framed_iff {inner : List Char → Prop}
    (solid : ∀ core, inner core → ∀ c ∈ core, isBlank c = false) :
    Framed inner text ↔ inner (trim text) := by
  constructor
  · rintro ⟨front, core, back, rfl, before, behind, own⟩
    rw [trim_append before, trim_append_blanks (solid core own) behind]
    exact own
  · intro own
    obtain ⟨front, back, same, before, behind⟩ := exists_blanks_around text
    exact ⟨front, trim text, back, same, before, behind, own⟩

theorem Spells.solid (known : base ≤ 16) (spelled : Spells base text value) :
    ∀ c ∈ text, isBlank c = false := by
  intro c among
  obtain ⟨n, _, read⟩ := spelled.exists_readDigits known
  obtain ⟨digit, own⟩ := Option.isSome_iff_exists.mp (isSome_of_mem_of_readDigits read among)
  obtain ⟨small, rfl | rfl⟩ := (digitValue?_eq_some_iff known).mp own
  · exact isBlank_digitChar (by omega)
  · have upper : ∀ digit < 16, isBlank digit.digitChar.toUpper = false := by decide
    exact upper digit (by omega)

theorem SpellsSigned.solid (known : base ≤ 16) (spelled : SpellsSigned base text value) :
    ∀ c ∈ text, isBlank c = false := by
  cases spelled with
  | plus digits => exact List.forall_mem_cons.mpr ⟨by decide, digits.solid known⟩
  | minus digits => exact List.forall_mem_cons.mpr ⟨by decide, digits.solid known⟩

theorem Based.solid {spells : Nat → List Char → Int → Prop}
    (inner : ∀ {base text value}, base ≤ 16 → spells base text value →
      ∀ c ∈ text, isBlank c = false)
    (based : Based spells text value) : ∀ c ∈ text, isBlank c = false := by
  cases based with
  | decimal spelled => exact inner (by decide) spelled
  | hexadecimal mark spelled =>
    refine List.forall_mem_cons.mpr ⟨by decide, List.forall_mem_cons.mpr ⟨?_, ?_⟩⟩
    · rcases mark with rfl | rfl <;> decide
    · exact inner (by decide) spelled

theorem Numeral.solid (numeral : Numeral text value) : ∀ c ∈ text, isBlank c = false := by
  cases numeral with
  | plain based => exact based.solid Spells.solid
  | minus based => exact List.forall_mem_cons.mpr ⟨by decide, based.solid Spells.solid⟩

theorem Resigned.solid (resigned : Resigned text number) :
    ∀ c ∈ text, isBlank c = false := by
  cases resigned with
  | plain _ based => exact based.solid SpellsSigned.solid
  | minus based => exact List.forall_mem_cons.mpr ⟨by decide, based.solid SpellsSigned.solid⟩

/-! ### The texts that are read -/

theorem Based.nonneg (based : Based Spells text value) : 0 ≤ value := by
  cases based with
  | decimal spelled | hexadecimal _ spelled =>
    obtain ⟨n, rfl, _⟩ := spelled.exists_readDigits (by decide)
    exact Int.natCast_nonneg n

theorem not_based_minus : ¬Based Spells ('-' :: text) value := by
  intro based
  cases based with
  | decimal spelled => exact not_spells_sign (by decide) (.inl rfl) spelled

theorem numeral_minus_iff : Numeral ('-' :: text) value ↔ Based Spells text (-value) := by
  constructor
  · intro numeral
    cases numeral with
    | plain based => exact absurd based not_based_minus
    | minus based => rwa [Int.neg_neg]
  · intro based
    rw [← Int.neg_neg value]
    exact .minus based

theorem numeral_unsigned_iff (unsigned : text.head? ≠ some '-') :
    Numeral text value ↔ Based Spells text value := by
  constructor
  · intro numeral
    cases numeral with
    | plain based => exact based
    | minus _ => exact absurd rfl unsigned
  · exact .plain

theorem resigned_minus_iff :
    Resigned ('-' :: text) number ↔ Based SpellsSigned text (-number).toInt := by
  constructor
  · intro resigned
    cases resigned with
    | plain unsigned _ => exact absurd rfl unsigned
    | minus based => rwa [Int64.neg_neg]
  · intro based
    rw [← Int64.neg_neg (a := number)]
    exact .minus based

theorem resigned_unsigned_iff (unsigned : text.head? ≠ some '-') :
    Resigned text number ↔ Based SpellsSigned text number.toInt := by
  constructor
  · intro resigned
    cases resigned with
    | plain _ based => exact based
    | minus _ => exact absurd rfl unsigned
  · exact .plain unsigned

theorem ne_minValue_iff : number ≠ Int64.minValue ↔ -0x8000000000000000 < number.toInt := by
  have lowest : Int64.minValue.toInt = -0x8000000000000000 := Int64.toInt_minValue
  have least := number.le_toInt
  rw [ne_eq, ← Int64.toInt_inj, lowest]
  omega

/-- The negative of the least number is the least number, so no digits spell it. -/
theorem based_neg_iff :
    Based Spells text (-number).toInt ↔
      Based Spells text (-number.toInt) ∧ number ≠ Int64.minValue := by
  have negated : number ≠ Int64.minValue → (-number).toInt = -number.toInt := by
    intro least
    have above := ne_minValue_iff.mp least
    have most := number.toInt_lt
    rw [Int64.toInt_neg, Int.bmod_eq_of_le (by omega) (by omega)]
  constructor
  · intro based
    have least : number ≠ Int64.minValue := by
      rintro rfl
      exact absurd based.nonneg (by decide)
    exact ⟨negated least ▸ based, least⟩
  · rintro ⟨based, least⟩
    exact negated least ▸ based

/-- **Which texts are read, and as which numbers**: those of the grammar, except for the least
number, and those in which the digits carry a sign of their own. -/
theorem parseInt64_eq_some_iff :
    parseInt64 text = some number ↔
      Framed (Numeral · number.toInt) text ∧ number ≠ Int64.minValue ∨
        Framed (Resigned · number) text := by
  rw [framed_iff fun _ => Numeral.solid, framed_iff fun _ => Resigned.solid, parseInt64]
  generalize trim text = core
  split
  · next magnitude =>
    have negated : (parseMagnitude magnitude).map (fun value => -value) = some number ↔
        parseMagnitude magnitude = some (-number) := by
      rw [Option.map_eq_some_iff]
      constructor
      · rintro ⟨value, read, rfl⟩
        rwa [Int64.neg_neg]
      · intro read
        exact ⟨-number, read, Int64.neg_neg⟩
    rw [negated, parseMagnitude_eq_some_iff, based_neg_iff, numeral_minus_iff, resigned_minus_iff]
  · next other =>
    have unsigned : core.head? ≠ some '-' := by
      intro first
      obtain ⟨rest, rfl⟩ := List.head?_eq_some_iff.mp first
      exact other rest rfl
    have least : Based Spells core number.toInt → number ≠ Int64.minValue := fun based =>
      ne_minValue_iff.mpr (by have := based.nonneg; omega)
    rw [parseMagnitude_eq_some_iff, numeral_unsigned_iff unsigned, resigned_unsigned_iff unsigned,
      and_iff_left_of_imp least]

theorem Spells.not_signed (known : base ≤ 16) (spelled : Spells base text value) {other : Int} :
    ¬SpellsSigned base text other := by
  intro signed
  cases signed with
  | plus _ => exact not_spells_sign known (.inr rfl) spelled
  | minus _ => exact not_spells_sign known (.inl rfl) spelled

theorem Based.not_signed (based : Based Spells text value) {other : Int} :
    ¬Based SpellsSigned text other := by
  intro signed
  cases based with
  | decimal spelled =>
    cases signed with
    | decimal signed => exact spelled.not_signed (by decide) signed
    | hexadecimal mark _ => exact not_spells_mark mark spelled
  | hexadecimal mark spelled =>
    rw [based_marked_iff mark not_spellsSigned_mark] at signed
    exact spelled.not_signed (by decide) signed

/-- A text of the grammar has no second sign. -/
theorem Numeral.not_resigned (numeral : Numeral text value) : ¬Resigned text number := by
  intro resigned
  cases resigned with
  | plain unsigned signed => exact ((numeral_unsigned_iff unsigned).mp numeral).not_signed signed
  | minus signed => exact (numeral_minus_iff.mp numeral).not_signed signed

theorem Framed.not_resigned (numeral : Framed (Numeral · value) text) :
    ¬Framed (Resigned · number) text := by
  rw [framed_iff fun _ => Numeral.solid] at numeral
  rw [framed_iff fun _ => Resigned.solid]
  exact numeral.not_resigned

/-- **On which texts the reader follows the grammar**: those in which the digits carry no sign of
their own, and that do not write the least number. -/
theorem parseInt64_follows_iff (text : List Char) :
    (∀ number, parseInt64 text = some number ↔
      Framed (Numeral · number.toInt) text ∧ number ≠ Int64.minValue ∨
        Framed (Resigned · number) text) ∧
    ((∀ number, parseInt64 text = some number ↔ Framed (Numeral · number.toInt) text) ↔
      (∀ number, ¬Framed (Resigned · number) text) ∧
        ¬Framed (Numeral · Int64.minValue.toInt) text) := by
  refine ⟨fun number => parseInt64_eq_some_iff, ?_⟩
  simp only [parseInt64_eq_some_iff]
  constructor
  · intro follows
    have single : ∀ number, ¬Framed (Resigned · number) text := fun number resigned =>
      ((follows number).mp (.inr resigned)).not_resigned resigned
    refine ⟨single, fun least => ?_⟩
    rcases (follows Int64.minValue).mpr least with ⟨_, other⟩ | resigned
    · exact other rfl
    · exact single _ resigned
  · rintro ⟨single, least⟩ number
    rw [or_iff_left (single number)]
    refine and_iff_left_of_imp fun numeral => ?_
    rintro rfl
    exact least numeral

/-- A second sign is read, and the least number is not. -/
theorem not_follows_second_sign :
    (parseInt64 "--5".toList = some 5 ∧ ¬Framed (Numeral · (5 : Int64).toInt) "--5".toList) ∧
      parseInt64 "-9223372036854775808".toList ≠ some Int64.minValue ∧
        Framed (Numeral · Int64.minValue.toInt) "-9223372036854775808".toList := by
  refine ⟨⟨by decide, ?_⟩, by decide, ?_⟩
  · rw [framed_iff fun _ => Numeral.solid]
    have trimmed : trim "--5".toList = ['-', '-', '5'] := by decide
    rw [trimmed, numeral_minus_iff]
    exact not_based_minus
  · rw [framed_iff fun _ => Numeral.solid]
    have trimmed : trim "-9223372036854775808".toList = '-' :: "9223372036854775808".toList := by
      decide
    have read : readDigits 10 "9223372036854775808".toList = some 0x8000000000000000 := by decide
    rw [trimmed, Int64.toInt_minValue]
    exact .minus (.decimal ((readDigits_eq_some_iff (by decide)).mp read))

end SceneScript.Text
