import LinuxDriver.MachineInt

/-!
# Fields of a raw register

The raw CSD and CID of a card are 128 bits in four words, of which the first has the highest bits.
`UNSTUFF_BITS` reads a field that may straddle two words. It reads the bits of the number that the
four words denote.

## Main definitions

* `RawReg`, `RawReg.value`: the four words, and the number.
* `unstuffBits`: `UNSTUFF_BITS`.
* `unstuffBitsChecked`: the same steps, of which each read and each shift may have no meaning.

## Main results

* `unstuffBits_eq`: the field is a quotient of the number, cut to its size.
* `unstuffBitsChecked_eq`: every read stays in the four words, and every shift amount below 32.
-/

namespace LinuxDriver.Mmc

/-- `raw_csd` or `raw_cid`: four words of 32 bits. -/
structure RawReg where
  word : Fin 4 → ℕ
  word_lt : ∀ i, word i < 2 ^ 32

namespace RawReg

/-- `resp[i]`. There is nothing to read outside of the four words. -/
def get (r : RawReg) (i : ℤ) : ℕ :=
  if h : 0 ≤ i ∧ i < 4 then r.word ⟨i.toNat, by omega⟩ else 0

/-- The number of 128 bits. -/
def value (r : RawReg) : ℕ :=
  r.word 0 * 2 ^ 96 + r.word 1 * 2 ^ 64 + r.word 2 * 2 ^ 32 + r.word 3

end RawReg

/-- `UNSTUFF_BITS` -/
def unstuffBits (resp : RawReg) (start size : ℕ) : ℕ :=
  let mask := wrapSub 32 (if size < 32 then 1 <<< size else 0) 1
  let off : ℤ := 3 - (start / 32 : ℕ)
  let shft := start &&& 31
  let res := resp.get off >>> shft
  let res :=
    if 32 < size + shft then res ||| resp.get (off - 1) <<< ((32 - shft) % 32) % 2 ^ 32 else res
  res &&& mask

theorem mask_eq {size : ℕ} (hpos : 1 ≤ size) (hsize : size ≤ 32) :
    wrapSub 32 (if size < 32 then 1 <<< size else 0) 1 = 2 ^ size - 1 := by
  split_ifs with hlt
  · have hpow : 2 ^ size < 2 ^ 32 := Nat.pow_lt_pow_right (by norm_num) hlt
    rw [Nat.one_shiftLeft]
    exact wrapSub_of_le hpow Nat.one_le_two_pow
  · obtain rfl : size = 32 := by omega
    decide

variable (r : RawReg)

theorem get_lt (i : ℤ) : r.get i < 2 ^ 32 := by
  rw [RawReg.get]
  split_ifs
  · exact r.word_lt _
  · norm_num

/-- The words of the number, from the lowest one up. -/
theorem value_div_mod {k : ℕ} (hk : k < 4) :
    r.value / 2 ^ (32 * k) % 2 ^ 32 = r.get (3 - k) := by
  have h0 := r.word_lt 0
  have h1 := r.word_lt 1
  have h2 := r.word_lt 2
  have h3 := r.word_lt 3
  have hword : r.get (3 - k) = r.word ⟨3 - k, by omega⟩ := by
    rw [RawReg.get, dif_pos (by omega)]
    congr 2
    omega
  rw [hword, RawReg.value]
  interval_cases k
  · change _ = r.word 3
    omega
  · change _ = r.word 2
    omega
  · change _ = r.word 1
    omega
  · change _ = r.word 0
    omega

theorem value_testBit {k i : ℕ} (hk : k < 4) (hi : i < 32) :
    r.value.testBit (32 * k + i) = (r.get (3 - k)).testBit i := by
  rw [← value_div_mod r hk, Nat.testBit_mod_two_pow, Nat.testBit_div_two_pow]
  simp [hi, Nat.add_comm]

/-- The bits of a field that starts at bit `s` of the word `lo` and may end in the word above. -/
theorem straddle_testBit {lo hi s size i : ℕ} (hlo : lo < 2 ^ 32) (hs : s < 32) (hi' : i < size)
    (hsize : size ≤ 32) :
    (if 32 < size + s then lo >>> s ||| hi <<< ((32 - s) % 32) % 2 ^ 32 else lo >>> s).testBit i =
      if s + i < 32 then lo.testBit (s + i) else hi.testBit (s + i - 32) := by
  by_cases hstraddle : 32 < size + s
  · have hmod : (32 - s) % 32 = 32 - s := Nat.mod_eq_of_lt (by omega)
    have hi32 : i < 32 := by omega
    rw [if_pos hstraddle, hmod, Nat.testBit_or, Nat.testBit_shiftRight, Nat.testBit_mod_two_pow,
      Nat.testBit_shiftLeft]
    split_ifs with hin
    · have hbelow : ¬32 - s ≤ i := by omega
      simp [hbelow]
    · have habove : 32 - s ≤ i := by omega
      have hzero : lo.testBit (s + i) = false :=
        Nat.testBit_lt_two_pow (hlo.trans_le (Nat.pow_le_pow_right (by norm_num) (by omega)))
      have hsub : i - (32 - s) = s + i - 32 := by omega
      simp [hzero, hi32, habove, hsub]
  · rw [if_neg hstraddle, Nat.testBit_shiftRight, if_pos (by omega)]

/-- **A field of a register.** -/
theorem unstuffBits_eq {start size : ℕ} (hpos : 1 ≤ size) (hsize : size ≤ 32)
    (h : start + size ≤ 128) :
    unstuffBits r start size = r.value / 2 ^ start % 2 ^ size := by
  have hshft : start &&& 31 = start % 32 := Nat.and_two_pow_sub_one_eq_mod start 5
  have hsplit : 32 * (start / 32) + start % 32 = start := Nat.div_add_mod start 32
  have hoff : start % 32 < 32 := Nat.mod_lt _ (by norm_num)
  refine Nat.eq_of_testBit_eq fun i => ?_
  simp only [unstuffBits, mask_eq hpos hsize, hshft, Nat.testBit_and, Nat.testBit_two_pow_sub_one,
    Nat.testBit_mod_two_pow, Nat.testBit_div_two_pow]
  by_cases hi : i < size
  · rw [straddle_testBit (get_lt r _) hoff hi hsize, Bool.and_comm]
    generalize start % 32 = s at *
    generalize start / 32 = k at *
    congr 1
    split_ifs with hin
    · rw [← value_testBit r (by omega) hin]
      congr 1
      omega
    · have hnext : (3 : ℤ) - k - 1 = 3 - (k + 1 : ℕ) := by omega
      rw [hnext, ← value_testBit r (by omega) (by omega)]
      congr 1
      omega
  · simp [hi]

/-! ### The steps that C gives a meaning to -/

/-- `resp[i]`, or nothing outside of the four words. -/
def RawReg.getChecked (i : ℤ) : Option ℕ :=
  if 0 ≤ i ∧ i < 4 then some (r.get i) else none

/-- `x << n` in 32 bits, or nothing when the amount reaches the width. -/
def shlChecked (x n : ℕ) : Option ℕ :=
  if n < 32 then some (x <<< n % 2 ^ 32) else none

/-- `x >> n` in 32 bits, or nothing when the amount reaches the width. -/
def shrChecked (x n : ℕ) : Option ℕ :=
  if n < 32 then some (x >>> n) else none

/-- `UNSTUFF_BITS`, one read and one shift after the other. The macro has two of each when the
field straddles two words. -/
def unstuffBitsChecked (resp : RawReg) (start size : ℕ) : Option ℕ :=
  (if size < 32 then shlChecked 1 size else some 0).bind fun bit =>
    let mask := wrapSub 32 bit 1
    let off : ℤ := 3 - (start / 32 : ℕ)
    let shft := start &&& 31
    (resp.getChecked off).bind fun low =>
      (shrChecked low shft).bind fun res =>
        if 32 < size + shft then
          (resp.getChecked (off - 1)).bind fun high =>
            (shlChecked high ((32 - shft) % 32)).bind fun above => some ((res ||| above) &&& mask)
        else some (res &&& mask)

theorem getChecked_of_mem {i : ℤ} (h0 : 0 ≤ i) (h4 : i < 4) :
    r.getChecked i = some (r.get i) := by
  rw [RawReg.getChecked, if_pos ⟨h0, h4⟩]

theorem shlChecked_of_lt {x n : ℕ} (h : n < 32) : shlChecked x n = some (x <<< n % 2 ^ 32) := by
  rw [shlChecked, if_pos h]

theorem shrChecked_of_lt {x n : ℕ} (h : n < 32) : shrChecked x n = some (x >>> n) := by
  rw [shrChecked, if_pos h]

/-- `1 << size` reaches neither the width nor the modulus. -/
theorem shlChecked_one (size : ℕ) :
    (if size < 32 then shlChecked 1 size else some 0) =
      some (if size < 32 then 1 <<< size else 0) := by
  split_ifs with hlt
  · have hpow : 2 ^ size < 2 ^ 32 := Nat.pow_lt_pow_right (by norm_num) hlt
    rw [shlChecked_of_lt hlt, Nat.one_shiftLeft, Nat.mod_eq_of_lt hpow]
  · rfl

/-- On a field of the register the checked steps all have a meaning, and compute `unstuffBits`. -/
theorem unstuffBitsChecked_eq_unstuffBits {start size : ℕ} (hpos : 1 ≤ size) (hsize : size ≤ 32)
    (h : start + size ≤ 128) :
    unstuffBitsChecked r start size = some (unstuffBits r start size) := by
  have hshft : start &&& 31 = start % 32 := Nat.and_two_pow_sub_one_eq_mod start 5
  have hlt : start % 32 < 32 := Nat.mod_lt _ (by norm_num)
  have hmod : (32 - start % 32) % 32 < 32 := Nat.mod_lt _ (by norm_num)
  have hlow : r.getChecked (3 - (start / 32 : ℕ)) = some (r.get (3 - (start / 32 : ℕ))) :=
    getChecked_of_mem r (by omega) (by omega)
  simp only [unstuffBitsChecked, unstuffBits, shlChecked_one, hshft, hlow, shrChecked_of_lt hlt,
    Option.bind_some]
  by_cases hstraddle : 32 < size + start % 32
  · -- a field that straddles does not end in the highest word
    have hhigh : r.getChecked (3 - (start / 32 : ℕ) - 1) =
        some (r.get (3 - (start / 32 : ℕ) - 1)) :=
      getChecked_of_mem r (by omega) (by omega)
    simp only [if_pos hstraddle, hhigh, shlChecked_of_lt hmod, Option.bind_some]
  · simp only [if_neg hstraddle]

/-- **A field of a register, with every read and every shift in range.** -/
theorem unstuffBitsChecked_eq {start size : ℕ} (hpos : 1 ≤ size) (hsize : size ≤ 32)
    (h : start + size ≤ 128) :
    unstuffBitsChecked r start size = some (r.value / 2 ^ start % 2 ^ size) := by
  rw [unstuffBitsChecked_eq_unstuffBits r hpos hsize h, unstuffBits_eq r hpos hsize h]

/-- The serial number of a CID straddles the two low words. -/
theorem unstuffBitsChecked_eq_serial :
    unstuffBitsChecked ⟨![0, 0, 0x12, 0x34567890], by decide⟩ 24 32 = some 0x1234 := by
  refine (unstuffBitsChecked_eq _ (by decide) (by decide) (by decide)).trans ?_
  decide

end LinuxDriver.Mmc
