/-
**Little-endian words.**

A word of `width` bytes is written with its low byte first. `toBytes` writes the low `width` bytes
of a number, `ofBytes` reads them back, and `signed` reads a word as a two's complement number.

* `length_toBytes`: a word of width `w` takes `w` bytes.
* `ofBytes_toBytes`: reading what was written gives the number modulo `256 ^ w`.
* `toBytes_ofBytes`: writing what was read gives the bytes again.
-/

namespace SceneScript.Word

/-- The low `width` bytes of a number, low byte first. -/
def toBytes : (width n : Nat) → List UInt8
  | 0, _ => []
  | width + 1, n => n.toUInt8 :: toBytes width (n / 256)

/-- The number whose bytes, low byte first, are given. -/
def ofBytes : List UInt8 → Nat
  | [] => 0
  | b :: rest => b.toNat + 256 * ofBytes rest

/-- The two's complement reading of a word of `width` bytes. -/
def signed (width n : Nat) : Int :=
  if n < Nat.pow 2 (8 * width - 1) then n else (n : Int) - (Nat.pow 2 (8 * width) : Nat)

@[simp] theorem length_toBytes (width n : Nat) : (toBytes width n).length = width := by
  induction width generalizing n with
  | zero => rfl
  | succ width ih => simp [toBytes, ih]

theorem ofBytes_toBytes (width n : Nat) : ofBytes (toBytes width n) = n % Nat.pow 256 width := by
  induction width generalizing n with
  | zero => simp [toBytes, ofBytes, Nat.mod_one]
  | succ width ih =>
    simp only [toBytes, ofBytes, ih, Nat.pow_eq, Nat.pow_succ']
    rw [Nat.mod_mul]
    simp

theorem toBytes_ofBytes (bytes : List UInt8) : toBytes bytes.length (ofBytes bytes) = bytes := by
  induction bytes with
  | nil => rfl
  | cons b rest ih =>
    have low : (b.toNat + 256 * ofBytes rest).toUInt8 = b := by
      apply UInt8.toNat_inj.mp
      have bounded := b.toNat_lt
      simp only [Nat.toUInt8, UInt8.toNat_ofNat']
      omega
    have high : (b.toNat + 256 * ofBytes rest) / 256 = ofBytes rest := by
      have bounded := b.toNat_lt
      omega
    simp [toBytes, ofBytes, low, high, ih]

theorem ofBytes_lt (bytes : List UInt8) : ofBytes bytes < Nat.pow 256 bytes.length := by
  induction bytes with
  | nil => simp [ofBytes]
  | cons b rest ih =>
    have bounded := b.toNat_lt
    rw [Nat.pow_eq] at ih
    simp only [ofBytes, List.length_cons, Nat.pow_eq, Nat.pow_succ']
    omega

end SceneScript.Word
