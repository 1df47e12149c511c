import Mathlib

/-!
# Unsigned machine arithmetic

Unsigned C integers of `w` bits are natural numbers below `2 ^ w`, and the operations on them are
computed modulo `2 ^ w`. Each operation has one lemma that says when it is the exact operation on
natural numbers.

## Main definitions

* `wrapSub w a b`, `wrapAdd w a b`: difference and sum of unsigned `w`-bit integers.
* `toCInt n`: the value of an unsigned integer converted to the 32-bit type `int`.

## Main results

* `wrapSub_of_le`, `wrapSub_mod`, `wrapAdd_of_lt`, `toCInt_of_lt`.
-/

namespace LinuxDriver

/-- The difference `a - b` of unsigned integers of `w` bits. -/
def wrapSub (w a b : ℕ) : ℕ := (a + (2 ^ w - b % 2 ^ w)) % 2 ^ w

/-- The sum `a + b` of unsigned integers of `w` bits. -/
def wrapAdd (w a b : ℕ) : ℕ := (a + b) % 2 ^ w

/-- The conversion of an unsigned value to the signed 32-bit type `int`. -/
def toCInt (n : ℕ) : ℤ := (n : ℤ).bmod (2 ^ 32)

theorem wrapSub_of_le {w a b : ℕ} (ha : a < 2 ^ w) (hb : b ≤ a) : wrapSub w a b = a - b := by
  have hbw : b % 2 ^ w = b := Nat.mod_eq_of_lt (hb.trans_lt ha)
  have hsplit : a + (2 ^ w - b) = (a - b) + 2 ^ w := by omega
  rw [wrapSub, hbw, hsplit, Nat.add_mod_right, Nat.mod_eq_of_lt (by omega)]

/-- A difference less than `2 ^ w` survives the wrap of its first operand. -/
theorem wrapSub_mod {w a b : ℕ} (hb : b < 2 ^ w) (hle : b ≤ a) (hlt : a - b < 2 ^ w) :
    wrapSub w (a % 2 ^ w) b = a - b := by
  have hsplit : a + (2 ^ w - b) = (a - b) + 2 ^ w := by omega
  rw [wrapSub, Nat.mod_eq_of_lt hb, Nat.mod_add_mod, hsplit, Nat.add_mod_right,
    Nat.mod_eq_of_lt hlt]

theorem wrapAdd_of_lt {w a b : ℕ} (h : a + b < 2 ^ w) : wrapAdd w a b = a + b :=
  Nat.mod_eq_of_lt h

theorem toCInt_of_lt {n : ℕ} (h : n < 2 ^ 31) : toCInt n = n := by
  refine Int.bmod_eq_of_le ?_ ?_
  · norm_num
  · norm_num
    omega

end LinuxDriver
