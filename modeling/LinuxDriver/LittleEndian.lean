import Mathlib

/-!
# Little-endian words

A word of `w` bytes is a number, the lowest byte of which comes first in memory. A sequence of words
is a stream of bytes, and a stream that does not end with a word is filled up with zeros.

## Main definitions

* `leWord`: the word that some bytes denote.
* `leByte`, `leBytes`: the bytes of a word.
* `wordByte`: the bytes of a stream of words.

## Main results

* `leWord_append_singleton`: a byte is added to a word with a shift and a mask.
* `leBytes_leWord`: the bytes of a word, filled up with zeros.
* `leWord_leBytes`: the word of its bytes.
* `flatMap_leBytes`: the bytes of a list of words, by their positions.
-/

namespace LinuxDriver

/-- The word of the bytes, the lowest one first. -/
def leWord : List UInt8 → ℕ
  | [] => 0
  | b :: l => b.toNat + 256 * leWord l

/-- Byte `i` of a word. -/
def leByte (n i : ℕ) : UInt8 := UInt8.ofNat (n >>> (8 * i))

/-- The first `w` bytes of a word. -/
def leBytes (w n : ℕ) : List UInt8 := (List.range w).map (leByte n)

/-- Byte `k` of a stream of words of `w` bytes. -/
def wordByte (w : ℕ) (words : ℕ → ℕ) (k : ℕ) : UInt8 := leByte (words (k / w)) (k % w)

@[simp] theorem length_leBytes (w n : ℕ) : (leBytes w n).length = w := by
  rw [leBytes, List.length_map, List.length_range]

theorem length_flatMap_leBytes (w : ℕ) (words : List ℕ) :
    (words.flatMap (leBytes w)).length = w * words.length := by
  simp [List.length_flatMap, Nat.mul_comm]

theorem leWord_lt (l : List UInt8) : leWord l < 2 ^ (8 * l.length) := by
  induction l with
  | nil => exact Nat.one_pos
  | cons b l ih =>
    have hb : b.toNat < 256 := b.toNat_lt
    have hpow : 2 ^ (8 * (l.length + 1)) = 256 * 2 ^ (8 * l.length) := by
      rw [Nat.mul_succ, Nat.pow_add]
      omega
    rw [leWord, List.length_cons, hpow]
    omega

theorem leWord_append_singleton (l : List UInt8) (b : UInt8) :
    leWord (l ++ [b]) = leWord l ||| b.toNat <<< (8 * l.length) := by
  have hadd : leWord (l ++ [b]) = leWord l + 2 ^ (8 * l.length) * b.toNat := by
    induction l with
    | nil => simp [leWord]
    | cons c l ih =>
      rw [List.cons_append, leWord, ih, leWord, List.length_cons, Nat.mul_succ, Nat.pow_add]
      ring
  rw [hadd, Nat.shiftLeft_eq, Nat.mul_comm b.toNat, Nat.lor_comm,
    ← Nat.two_pow_add_eq_or_of_lt (leWord_lt l), Nat.add_comm]

/-- The lowest byte of a word, and the other ones. -/
theorem leByte_cons_zero (b : UInt8) (n : ℕ) : leByte (b.toNat + 256 * n) 0 = b := by
  have hb : b.toNat < 256 := b.toNat_lt
  refine UInt8.toNat_inj.mp ?_
  rw [leByte, Nat.mul_zero, Nat.shiftRight_zero, UInt8.toNat_ofNat']
  omega

theorem leByte_cons_succ (b : UInt8) (n i : ℕ) :
    leByte (b.toNat + 256 * n) (i + 1) = leByte n i := by
  have hb : b.toNat < 256 := b.toNat_lt
  have hshift : (b.toNat + 256 * n) >>> 8 = n := by
    rw [Nat.shiftRight_eq_div_pow]
    omega
  have hidx : 8 * (i + 1) = 8 + 8 * i := by omega
  rw [leByte, leByte, hidx, Nat.shiftRight_add, hshift]

theorem leByte_leWord (l : List UInt8) (i : ℕ) : leByte (leWord l) i = l.getD i 0 := by
  induction l generalizing i with
  | nil => simp [leWord, leByte]
  | cons b l ih =>
    cases i with
    | zero => rw [leWord, leByte_cons_zero, List.getD_cons_zero]
    | succ i => rw [leWord, leByte_cons_succ, ih, List.getD_cons_succ]

theorem leBytes_leWord {l : List UInt8} {w : ℕ} (h : l.length ≤ w) :
    leBytes w (leWord l) = l ++ List.replicate (w - l.length) 0 := by
  refine List.ext_getElem (by simp [h]) fun i _ _ => ?_
  simp only [leBytes, List.getElem_map, List.getElem_range, leByte_leWord]
  by_cases hi : i < l.length
  · rw [List.getElem_append_left hi, List.getD_eq_getElem _ _ hi]
  · rw [List.getElem_append_right (Nat.not_lt.mp hi), List.getElem_replicate,
      List.getD_eq_default _ _ (Nat.not_lt.mp hi)]

/-- A word in two parts. -/
theorem leWord_append (l l' : List UInt8) :
    leWord (l ++ l') = leWord l + 2 ^ (8 * l.length) * leWord l' := by
  induction l with
  | nil => simp [leWord]
  | cons b l ih =>
    rw [List.cons_append, leWord, ih, leWord, List.length_cons, Nat.mul_succ, Nat.pow_add]
    ring

theorem take_leBytes {k w : ℕ} (h : k ≤ w) (n : ℕ) : (leBytes w n).take k = leBytes k n := by
  rw [leBytes, ← List.map_take, List.take_range, Nat.min_eq_left h, leBytes]

/-- A word of `w` bytes is read back without what did not fit. -/
theorem leWord_leBytes (w n : ℕ) : leWord (leBytes w n) = n % 2 ^ (8 * w) := by
  induction w generalizing n with
  | zero => simp [leBytes, leWord, Nat.mod_one]
  | succ w ih =>
    have hfirst : (leByte n 0).toNat = n % 256 := by
      rw [leByte, Nat.mul_zero, Nat.shiftRight_zero, UInt8.toNat_ofNat']
    have hrest : (List.range w).map (leByte n ∘ Nat.succ) = leBytes w (n / 256) := by
      refine List.map_congr_left fun i _ => ?_
      have hshift : 8 * i.succ = 8 + 8 * i := by omega
      rw [Function.comp_apply, leByte, leByte, hshift, Nat.shiftRight_add,
        Nat.shiftRight_eq_div_pow n 8]
    rw [leBytes, List.range_succ_eq_map, List.map_cons, List.map_map, hrest, leWord, ih, hfirst,
      Nat.mul_succ, Nat.add_comm (8 * w) 8, Nat.pow_add]
    exact (Nat.mod_mul).symm

/-- The bytes of a list of words, by their positions in the stream. -/
theorem flatMap_leBytes {w : ℕ} (hw : 0 < w) {ws : List ℕ} {words : ℕ → ℕ}
    (h : ∀ i, (hi : i < ws.length) → ws[i] = words i) :
    ws.flatMap (leBytes w) = (List.range (w * ws.length)).map (wordByte w words) := by
  induction ws generalizing words with
  | nil => simp
  | cons n ws ih =>
    have hhead : n = words 0 := h 0 (Nat.zero_lt_succ _)
    have htail := @ih (fun i => words (i + 1)) fun i hi => h (i + 1) (Nat.succ_lt_succ hi)
    rw [List.flatMap_cons, htail, List.length_cons, Nat.mul_succ, Nat.add_comm, List.range_add,
      List.map_append, List.map_map]
    congr 1
    · refine List.map_congr_left fun k hk => ?_
      have hkw : k < w := List.mem_range.mp hk
      rw [wordByte, Nat.div_eq_of_lt hkw, Nat.mod_eq_of_lt hkw, hhead]
    · refine List.map_congr_left fun k _ => ?_
      rw [Function.comp_apply, wordByte, wordByte, Nat.add_div_left _ hw, Nat.add_mod_left]

end LinuxDriver
