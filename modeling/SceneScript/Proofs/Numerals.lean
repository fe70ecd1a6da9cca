/-
**Numbers that are written read back.**

Digits are read from the left: each of them multiplies what was read by the base and adds its own
value. So the digits of a number read as that number, with any number of zeros in front.

* `readDigits_toDigits`, `readDigits_hexDigits`: the digits of a number read as the number;
* `readSigned_of_readDigits`, `parseMagnitude_of_readDigits`: digits alone are read without a sign,
  and decimal ones are not taken for hexadecimal ones;
* `parseInt64_hexPadded`, `parseInt64_toString`: the numbers of a listing read back;
* `readByte_hexByte`: so do the bytes of a payload.
-/

import SceneScript.Text.Number
import SceneScript.Proofs.Pieces
import Mathlib.Data.Nat.Init

namespace SceneScript.Text

variable {base width n : Nat} {c : Char} {text : List Char}

/-! ### Digits -/

/-- The value of a digit does not depend on the base. -/
theorem digitValue?_of_lt {digit : Nat} (value : digitValue? 36 c = some digit)
    (small : digit < base) : digitValue? base c = some digit := by
  unfold digitValue? at value ⊢
  obtain ⟨same, _⟩ := Option.filter_eq_some_iff.mp value
  exact Option.filter_eq_some_iff.mpr ⟨same, by simpa using small⟩

theorem digitValue?_digitChar {digit : Nat} (small : digit < base) (known : digit < 16) :
    digitValue? base digit.digitChar = some digit := by
  have value : ∀ digit < 16, digitValue? 36 digit.digitChar = some digit := by decide
  exact digitValue?_of_lt (value digit known) small

/-- The digits of a number are digits of its base. -/
theorem exists_digit_of_mem_toDigits (two : 1 < base) (among : c ∈ Nat.toDigits base n) :
    ∃ digit < base, c = digit.digitChar := by
  induction n using Nat.strongRecOn with
  | ind n ih =>
    rw [Nat.toDigits_eq_if two] at among
    split at among
    · next small => exact ⟨n, small, List.mem_singleton.mp among⟩
    · next large =>
      have less : n / base < n := Nat.div_lt_self (by omega) two
      rcases List.mem_append.mp among with front | last
      · exact ih (n / base) less front
      · exact ⟨n % base, Nat.mod_lt n (by omega), List.mem_singleton.mp last⟩

/-- The digits of a number in hexadecimal are hexadecimal digits. -/
theorem exists_digit_of_mem_hexDigits (among : c ∈ (hexDigits width n).toList) :
    ∃ digit < 16, c = digit.digitChar := by
  rw [hexDigits, String.toList_ofList] at among
  rcases List.mem_append.mp among with zero | own
  · exact ⟨0, by decide, List.eq_of_mem_replicate zero⟩
  · exact exists_digit_of_mem_toDigits (by decide) own

theorem readDigits_eq (some : text ≠ []) :
    readDigits base text = text.foldlM (readDigit base) 0 := by
  rw [readDigits, if_neg (by simpa using some)]

theorem foldlM_readDigit_toDigits (two : 1 < base) (known : base ≤ 16) (n : Nat) :
    (Nat.toDigits base n).foldlM (readDigit base) 0 = some n := by
  induction n using Nat.strongRecOn with
  | ind n ih =>
    rw [Nat.toDigits_eq_if two]
    split
    · next small =>
      rw [List.foldlM_cons, readDigit, digitValue?_digitChar small (by omega)]
      simp
    · next large =>
      have less : n / base < n := Nat.div_lt_self (by omega) two
      have digit : n % base < base := Nat.mod_lt n (by omega)
      rw [List.foldlM_append, ih (n / base) less, Option.bind_eq_bind, Option.bind_some,
        List.foldlM_cons, readDigit, digitValue?_digitChar digit (by omega)]
      simp [Nat.div_add_mod']

/-- **The digits of a number read as the number**, with any number of zeros in front. -/
theorem readDigits_toDigits (two : 1 < base) (known : base ≤ 16) (zeros n : Nat) :
    readDigits base (List.replicate zeros '0' ++ Nat.toDigits base n) = some n := by
  have read : (List.replicate zeros '0').foldlM (readDigit base) 0 = some 0 := by
    induction zeros with
    | zero => rfl
    | succ zeros ih =>
      have zero : digitValue? base '0' = some 0 :=
        digitValue?_digitChar (by omega : 0 < base) (by decide)
      rw [List.replicate_succ, List.foldlM_cons, readDigit, zero]
      simpa using ih
  have nonempty : List.replicate zeros '0' ++ Nat.toDigits base n ≠ [] :=
    List.append_ne_nil_of_right_ne_nil _ Nat.toDigits_ne_nil
  rw [readDigits_eq nonempty, List.foldlM_append, read]
  exact foldlM_readDigit_toDigits two known n

theorem readDigits_hexDigits (width n : Nat) :
    readDigits 16 (hexDigits width n).toList = some n := by
  rw [hexDigits, String.toList_ofList]
  exact readDigits_toDigits (by decide) (by decide) _ n

/-! ### Signs -/

/-- The characters of a text that reads as digits are digits. -/
theorem isSome_of_mem_of_readDigits (read : readDigits base text = some n) (among : c ∈ text) :
    (digitValue? base c).isSome = true := by
  rw [readDigits_eq (List.ne_nil_of_mem among)] at read
  generalize 0 = start at read
  induction text generalizing start with
  | nil => cases among
  | cons first rest ih =>
    rw [List.foldlM_cons] at read
    obtain ⟨value, step, later⟩ := Option.bind_eq_some_iff.mp read
    rcases List.mem_cons.mp among with rfl | own
    · obtain ⟨digit, known, _⟩ := Option.map_eq_some_iff.mp step
      rw [known]
      rfl
    · exact ih own value later

/-- A text that reads as digits has no other character. -/
theorem not_mem_of_readDigits (read : readDigits base text = some n)
    (other : digitValue? base c = none) : c ∉ text := by
  intro among
  have digit := isSome_of_mem_of_readDigits read among
  rw [other] at digit
  cases digit

theorem digitValue?_eq_none (odd : digitValue? 36 c = none) (known : base ≤ 36) :
    digitValue? base c = none := by
  unfold digitValue? at odd ⊢
  rw [Option.filter_eq_none_iff] at odd ⊢
  intro value same small
  exact odd value same (by simpa using Nat.lt_of_lt_of_le (by simpa using small) known)

/-- **Digits alone are read without a sign.** -/
theorem readSigned_of_readDigits (known : base ≤ 36) (read : readDigits base text = some n) :
    readSigned base text = some (n : Int) := by
  have minus : '-' ∉ text := not_mem_of_readDigits read (digitValue?_eq_none (by decide) known)
  have plus : '+' ∉ text := not_mem_of_readDigits read (digitValue?_eq_none (by decide) known)
  unfold readSigned
  split
  · exact absurd List.mem_cons_self minus
  · exact absurd List.mem_cons_self plus
  · rw [read]
    rfl

/-- **Decimal digits are not taken for hexadecimal ones.** -/
theorem parseMagnitude_of_readDigits (read : readDigits 10 text = some n) :
    parseMagnitude text = int64? n := by
  have lower := not_mem_of_readDigits read (by decide : digitValue? 10 'x' = none)
  have upper := not_mem_of_readDigits read (by decide : digitValue? 10 'X' = none)
  unfold parseMagnitude
  split
  · simp at lower
  · simp at upper
  · rw [readSigned_of_readDigits (by decide) read, Option.bind_some]

/-! ### Numbers -/

theorem int64?_toInt (value : Int64) : int64? value.toInt = some value := by
  have least := value.le_toInt
  have most := value.toInt_lt
  rw [int64?, if_pos (by omega), Int64.ofInt_toInt]

theorem int64?_toNat {value : Int64} (positive : 0 ≤ value.toInt) :
    int64? (value.toInt.toNat : Int) = some value := by
  rw [Int.toNat_of_nonneg positive, int64?_toInt]

theorem isBlank_digitChar {digit : Nat} (known : digit < 16) : isBlank digit.digitChar = false := by
  have digits : ∀ digit < 16, isBlank digit.digitChar = false := by decide
  exact digits digit known

theorem parseInt64_of_unsigned (solid : ∀ c ∈ text, isBlank c = false)
    (unsigned : text.head? ≠ some '-') : parseInt64 text = parseMagnitude text := by
  rw [parseInt64, trim_of_not_blank solid]
  split
  · exact absurd rfl unsigned
  · rfl

theorem parseInt64_minus (solid : ∀ c ∈ text, isBlank c = false) :
    parseInt64 ('-' :: text) = (parseMagnitude text).map fun value => -value := by
  rw [parseInt64, trim_of_not_blank (List.forall_mem_cons.mpr ⟨rfl, solid⟩)]
  rfl

theorem toList_hexPadded (width n : Nat) :
    (hexPadded width n).toList = '0' :: 'x' :: (hexDigits width n).toList := by
  rw [hexPadded, String.toList_append]
  rfl

/-- **A number in hexadecimal reads back**, if it is not negative. -/
theorem parseInt64_hexPadded (width : Nat) {value : Int64} (positive : 0 ≤ value.toInt) :
    parseInt64 (hexPadded width value.toInt.toNat).toList = some value := by
  have solid : ∀ c ∈ (hexDigits width value.toInt.toNat).toList, isBlank c = false := by
    intro c among
    obtain ⟨digit, small, rfl⟩ := exists_digit_of_mem_hexDigits among
    exact isBlank_digitChar small
  have read := readSigned_of_readDigits (by decide) (readDigits_hexDigits width value.toInt.toNat)
  rw [toList_hexPadded, parseInt64_of_unsigned ?_ (by simp)]
  · show (readSigned 16 _).bind int64? = some value
    rw [read, Option.bind_some, int64?_toNat positive]
  · exact List.forall_mem_cons.mpr ⟨rfl, List.forall_mem_cons.mpr ⟨rfl, solid⟩⟩

/-- The digits of a number in decimal read as the number. -/
theorem readDigits_repr (n : Nat) : readDigits 10 n.repr.toList = some n := by
  rw [Nat.toList_repr]
  exact readDigits_toDigits (by decide) (by decide) 0 n

/-- **A number in decimal reads back**, if it is not the least one, whose digits alone are too
large. -/
theorem parseInt64_toString {value : Int64} (least : -0x8000000000000000 < value.toInt) :
    parseInt64 (toString value.toInt).toList = some value := by
  have solid : ∀ (n : Nat), ∀ c ∈ n.repr.toList, isBlank c = false := by
    intro n c among
    rw [Nat.toList_repr] at among
    obtain ⟨digit, small, rfl⟩ := exists_digit_of_mem_toDigits (by decide) among
    exact isBlank_digitChar (by omega)
  show parseInt64 value.toInt.repr.toList = some value
  rw [Int.repr_eq_if]
  split
  · next positive =>
    have read := readDigits_repr value.toInt.toNat
    have unsigned : '-' ∉ value.toInt.toNat.repr.toList :=
      not_mem_of_readDigits read (by decide)
    rw [parseInt64_of_unsigned (solid _) fun first => unsigned (List.mem_of_mem_head? first),
      parseMagnitude_of_readDigits read, int64?_toNat positive]
  · next negative =>
    have magnitude : ((-value.toInt).toNat : Int) = -value.toInt := by omega
    have known : int64? (-value.toInt) = some (-value) := by
      have most := value.toInt_lt
      rw [int64?, if_pos (by omega), Int64.ofInt_neg, Int64.ofInt_toInt]
    rw [String.toList_append]
    show parseInt64 ('-' :: (-value.toInt).toNat.repr.toList) = some value
    rw [parseInt64_minus (solid _), parseMagnitude_of_readDigits (readDigits_repr _), magnitude,
      known, Option.map_some, Int64.neg_neg]

/-! ### Bytes -/

/-- **A byte of a payload reads back.** -/
theorem readByte_hexByte (b : UInt8) : readByte (hexByte b).toList = some b := by
  have read := readDigits_hexDigits 2 b.toNat
  have plus : '+' ∉ (hexDigits 2 b.toNat).toList := not_mem_of_readDigits read (by decide)
  unfold readByte hexByte
  split
  · next digits split => exact absurd (split ▸ List.mem_cons_self) plus
  · simp only [read, Option.bind_some, b.toNat_lt, if_true]
    exact congrArg some UInt8.ofNat_toNat

end SceneScript.Text
