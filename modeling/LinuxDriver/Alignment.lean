import LinuxDriver.MachineInt

/-!
# Alignment of ranges

A range of units is divided into groups of `d` units, and only whole groups can be handled. The
aligned part of a range is what its whole groups cover: the largest subrange whose two ends are
multiples of `d`.

Rounding an unsigned integer to a power of two is done with masks. Both operations have one lemma
that says what they compute.

## Main definitions

* `roundDown`, `roundUp`: an unsigned `w`-bit integer rounded to a power of two.
* `alignedPart d a n`: the aligned part of the `n` units from `a` on.
* `groupsTouched d a b`: the number of groups that have a unit between `a` and `b`.

## Main results

* `roundDown_two_pow`, `roundUp_two_pow`, `or_two_pow_sub_one_inj`.
* `alignedPart_isGreatest`: the aligned part is the greatest aligned subrange.
* `alignedPart_eq_Ico`: its ends.
* `groupsTouched_eq`, `groupsTouched_le`: how many groups a range touches.
* `groupsTouched_eq_iff`: when a range touches as many groups of one size as of another.
-/

namespace LinuxDriver

/-! ### Rounding with masks -/

/-- `round_down` of unsigned `w`-bit integers: `x & ~(y - 1)`. -/
def roundDown (w x y : ℕ) : ℕ := x &&& (2 ^ w - (wrapSub w y 1 + 1))

/-- `round_up` of unsigned `w`-bit integers: `((x - 1) | (y - 1)) + 1`. -/
def roundUp (w x y : ℕ) : ℕ := wrapAdd w (wrapSub w x 1 ||| wrapSub w y 1) 1

private theorem wrapSub_two_pow_one {w k : ℕ} (hk : k < w) : wrapSub w (2 ^ k) 1 = 2 ^ k - 1 :=
  wrapSub_of_le (Nat.pow_lt_pow_right (by norm_num) hk) Nat.one_le_two_pow

theorem roundDown_two_pow {w k x : ℕ} (hx : x < 2 ^ w) (hk : k < w) :
    roundDown w x (2 ^ k) = x / 2 ^ k * 2 ^ k := by
  have hlt : 2 ^ k - 1 < 2 ^ w :=
    (Nat.sub_le _ _).trans_lt (Nat.pow_lt_pow_right (by norm_num) hk)
  rw [roundDown, wrapSub_two_pow_one hk]
  refine Nat.eq_of_testBit_eq fun i => ?_
  rw [Nat.testBit_and, Nat.testBit_two_pow_sub_succ hlt, Nat.testBit_two_pow_sub_one,
    Nat.testBit_mul_two_pow, Nat.testBit_div_two_pow]
  by_cases hki : k ≤ i
  · have hik : ¬i < k := by omega
    by_cases hiw : i < w
    · simp [hki, hik, hiw]
    · have hbit : x.testBit i = false :=
        Nat.testBit_lt_two_pow (hx.trans_le (Nat.pow_le_pow_right (by norm_num) (by omega)))
      simp [hki, hbit]
  · have hik : i < k := by omega
    simp [hik]

/-- The largest value with the same quotient by `2 ^ k`. -/
theorem or_two_pow_sub_one (x k : ℕ) :
    x ||| (2 ^ k - 1) = x / 2 ^ k * 2 ^ k + (2 ^ k - 1) := by
  have hlt : 2 ^ k - 1 < 2 ^ k := Nat.sub_lt (Nat.two_pow_pos k) Nat.one_pos
  rw [mul_comm, Nat.two_pow_add_eq_or_of_lt hlt]
  refine Nat.eq_of_testBit_eq fun i => ?_
  rw [Nat.testBit_or, Nat.testBit_or, Nat.testBit_two_pow_sub_one, mul_comm,
    Nat.testBit_mul_two_pow, Nat.testBit_div_two_pow]
  by_cases hki : k ≤ i
  · simp [hki]
  · have hik : i < k := by omega
    simp [hik]

/-- Two values are alike above a mask if they have the same quotient. -/
theorem or_two_pow_sub_one_inj {x y k : ℕ} :
    x ||| (2 ^ k - 1) = y ||| (2 ^ k - 1) ↔ x / 2 ^ k = y / 2 ^ k := by
  rw [or_two_pow_sub_one, or_two_pow_sub_one, Nat.add_right_cancel_iff,
    Nat.mul_left_inj (Nat.two_pow_pos k).ne']

/-- Rounding up is exact modulo the width of the type. -/
theorem roundUp_two_pow {w k x : ℕ} (hx : x < 2 ^ w) (hk : k < w) :
    roundUp w x (2 ^ k) = (x + (2 ^ k - 1)) / 2 ^ k * 2 ^ k % 2 ^ w := by
  have hone : 1 ≤ 2 ^ k := Nat.one_le_two_pow
  rw [roundUp, wrapSub_two_pow_one hk, or_two_pow_sub_one, wrapAdd]
  rcases Nat.eq_zero_or_pos x with rfl | hpos
  · have hwrap : wrapSub w 0 1 = 2 ^ w - 1 := by
      have hw : 1 < 2 ^ w := Nat.one_lt_two_pow (by omega)
      rw [wrapSub, Nat.mod_eq_of_lt hw, zero_add, Nat.mod_eq_of_lt (by omega)]
    have hzero : (0 + (2 ^ k - 1)) / 2 ^ k = 0 := Nat.div_eq_of_lt (by omega)
    have hpow : 2 ^ w = 2 ^ (w - k) * 2 ^ k := by rw [← pow_add, Nat.sub_add_cancel hk.le]
    have hquot : (2 ^ w - 1) / 2 ^ k + 1 = 2 ^ (w - k) := by
      have hpos : 0 < 2 ^ (w - k) := Nat.two_pow_pos _
      have hsplit : 2 ^ w - 1 = (2 ^ (w - k) - 1) * 2 ^ k + (2 ^ k - 1) := by
        rw [hpow, Nat.sub_mul]
        have hle : 1 * 2 ^ k ≤ 2 ^ (w - k) * 2 ^ k := Nat.mul_le_mul_right _ hpos
        omega
      rw [hsplit, mul_comm, Nat.mul_add_div hone, Nat.div_eq_of_lt (by omega)]
      omega
    have hround : (2 ^ w - 1) / 2 ^ k * 2 ^ k + (2 ^ k - 1) + 1 = 2 ^ w := by
      rw [add_assoc, Nat.sub_add_cancel hone, ← Nat.succ_mul, Nat.succ_eq_add_one, hquot, ← hpow]
    rw [hwrap, hround, hzero]
    simp
  · have hsub : wrapSub w x 1 = x - 1 := wrapSub_of_le hx hpos
    have hquot : (x + (2 ^ k - 1)) / 2 ^ k = (x - 1) / 2 ^ k + 1 := by
      rw [← Nat.add_div_right _ hone]
      congr 1
      omega
    rw [hsub, hquot, add_assoc, Nat.sub_add_cancel hone, Nat.succ_mul]

/-! ### The aligned part of a range -/

/-- The units of the groups of `d` units that lie in the range of the `n` units from `a` on. -/
def alignedPart (d a n : ℕ) : Set ℕ := {s | a ≤ s / d * d ∧ s / d * d + d ≤ a + n}

/-- A subset of the range whose two ends are multiples of `d`. -/
def IsAlignedSubrange (d a n : ℕ) (A : Set ℕ) : Prop :=
  A ⊆ Set.Ico a (a + n) ∧ ∃ b c, A = Set.Ico (b * d) (c * d)

variable {d a n : ℕ}

theorem mem_Ico_mul_iff (hd : 0 < d) {b c s : ℕ} :
    s ∈ Set.Ico (b * d) (c * d) ↔ b ≤ s / d ∧ s / d < c := by
  rw [Set.mem_Ico, Nat.le_div_iff_mul_le hd, Nat.div_lt_iff_lt_mul hd]

theorem alignedPart_eq_Ico (hd : 0 < d) :
    alignedPart d a n = Set.Ico ((a + (d - 1)) / d * d) ((a + n) / d * d) := by
  ext s
  rw [mem_Ico_mul_iff hd]
  have hlow : (a + (d - 1)) / d ≤ s / d ↔ a ≤ s / d * d := by
    rw [← Nat.lt_succ_iff, Nat.div_lt_iff_lt_mul hd, Nat.succ_mul]
    omega
  have hhigh : s / d < (a + n) / d ↔ s / d * d + d ≤ a + n := by
    rw [← Nat.succ_le_iff, Nat.le_div_iff_mul_le hd, Nat.succ_mul]
  rw [hlow, hhigh]
  rfl

theorem alignedPart_subset (hd : 0 < d) : alignedPart d a n ⊆ Set.Ico a (a + n) := by
  rintro s ⟨hlow, hhigh⟩
  have hdiv : s / d * d + s % d = s := Nat.div_add_mod' s d
  have hmod : s % d < d := Nat.mod_lt s hd
  exact ⟨by omega, by omega⟩

/-- The lower end of the aligned part of a range that starts inside a group. -/
theorem ceil_mul_of_mod_ne_zero (hd : 0 < d) (h : a % d ≠ 0) :
    (a + (d - 1)) / d * d = a + (d - a % d) := by
  have hdiv : d * (a / d) + a % d = a := Nat.div_add_mod a d
  have hmod : a % d < d := Nat.mod_lt a hd
  have hsplit : a + (d - 1) = d * (a / d + 1) + (a % d - 1) := by
    rw [mul_add_one]
    omega
  have hzero : (a % d - 1) / d = 0 := Nat.div_eq_of_lt (by omega)
  rw [hsplit, Nat.mul_add_div hd, hzero, add_zero, mul_comm, mul_add_one]
  omega

/-- The lower end of the aligned part of a range that starts with a group. -/
theorem ceil_mul_of_mod_eq_zero (hd : 0 < d) (h : a % d = 0) : (a + (d - 1)) / d * d = a := by
  have hdiv : d * (a / d) + a % d = a := Nat.div_add_mod a d
  have hsplit : a + (d - 1) = d * (a / d) + (d - 1) := by omega
  have hzero : (d - 1) / d = 0 := Nat.div_eq_of_lt (by omega)
  rw [hsplit, Nat.mul_add_div hd, hzero, add_zero, mul_comm]
  omega

theorem le_ceil_mul (hd : 0 < d) (a : ℕ) : a ≤ (a + (d - 1)) / d * d := by
  by_cases h : a % d = 0
  · exact (ceil_mul_of_mod_eq_zero hd h).ge
  · rw [ceil_mul_of_mod_ne_zero hd h]
    omega

/-- Rounding down what follows a multiple of `d` rounds down the end. -/
theorem sub_mul_div_mul (b m : ℕ) : (m - b * d) / d * d = m / d * d - b * d := by
  rw [mul_comm b, Nat.sub_mul_div, Nat.sub_mul, mul_comm b]

/-- **The aligned part is the greatest aligned subrange.** -/
theorem alignedPart_isGreatest (hd : 0 < d) :
    IsGreatest {A | IsAlignedSubrange d a n A} (alignedPart d a n) := by
  refine ⟨⟨alignedPart_subset hd, _, _, alignedPart_eq_Ico hd⟩, ?_⟩
  rintro A ⟨hsub, b, c, rfl⟩ s hs
  obtain ⟨hb, hc⟩ := (mem_Ico_mul_iff hd).mp hs
  -- the first and the last unit of the group of `s` are in the range
  have hfirst : s / d * d ∈ Set.Ico (b * d) (c * d) := by
    rw [mem_Ico_mul_iff hd, Nat.mul_div_cancel _ hd]
    exact ⟨hb, hc⟩
  have hlast : s / d * d + (d - 1) ∈ Set.Ico (b * d) (c * d) := by
    have hzero : (d - 1) / d = 0 := Nat.div_eq_of_lt (by omega)
    have hquot : (s / d * d + (d - 1)) / d = s / d := by
      rw [mul_comm, Nat.mul_add_div hd, hzero, add_zero]
    rw [mem_Ico_mul_iff hd, hquot]
    exact ⟨hb, hc⟩
  have hlow := (hsub hfirst).1
  have hhigh := (hsub hlast).2
  exact ⟨hlow, by omega⟩

/-! ### The groups of a range -/

/-- The number of groups of `d` units that intersect the inclusive range from `a` to `b`. -/
def groupsTouched (d a b : ℕ) : ℕ := ((Finset.Icc a b).image (· / d)).card

theorem image_div_Icc (hd : 0 < d) {a b : ℕ} (hab : a ≤ b) :
    (Finset.Icc a b).image (· / d) = Finset.Icc (a / d) (b / d) := by
  ext g
  simp only [Finset.mem_image, Finset.mem_Icc]
  constructor
  · rintro ⟨t, ⟨hat, htb⟩, rfl⟩
    exact ⟨Nat.div_le_div_right hat, Nat.div_le_div_right htb⟩
  · rintro ⟨hag, hgb⟩
    by_cases hstart : a ≤ g * d
    · exact ⟨g * d, ⟨hstart, (Nat.le_div_iff_mul_le hd).mp hgb⟩, Nat.mul_div_cancel g hd⟩
    · -- the range starts inside the group
      have hga : g ≤ a / d := (Nat.le_div_iff_mul_le hd).mpr (by omega)
      exact ⟨a, ⟨le_rfl, hab⟩, le_antisymm hag hga⟩

theorem groupsTouched_eq (hd : 0 < d) {a b : ℕ} (hab : a ≤ b) :
    groupsTouched d a b = b / d - a / d + 1 := by
  have hdiv : a / d ≤ b / d := Nat.div_le_div_right hab
  rw [groupsTouched, image_div_Icc hd hab, Nat.card_Icc]
  omega

/-- A range no longer than `k` groups touches one more at most. -/
theorem groupsTouched_le (hd : 0 < d) {a b k : ℕ} (hab : a ≤ b) (hk : b < a + k * d) :
    groupsTouched d a b ≤ k + 1 := by
  have hdiv : b / d ≤ a / d + k := by
    rw [← Nat.add_mul_div_right a k hd]
    exact Nat.div_le_div_right hk.le
  rw [groupsTouched_eq hd hab]
  omega

theorem add_div_le {m : ℕ} (hm : 0 < m) (a e : ℕ) : (a + e) / m ≤ a / m + e := by
  rw [← Nat.add_mul_div_right a e hm]
  exact Nat.div_le_div_right (Nat.add_le_add_left (Nat.le_mul_of_pos_right e hm) a)

/-- Quotients are as far apart as the numbers only if these are equal, or if they are next to each
other and the second is a multiple. -/
theorem div_sub_div_iff {m : ℕ} (hm : 2 ≤ m) {a b : ℕ} (hab : a ≤ b) :
    b / m - a / m = b - a ↔ b = a ∨ b = a + 1 ∧ m ∣ b := by
  obtain ⟨e, rfl⟩ := Nat.exists_eq_add_of_le hab
  rcases e with _ | _ | e
  · simp
  · rw [zero_add, Nat.succ_div]
    split_ifs with hdvd
    · simp [hdvd]
    · simp [hdvd]
  · -- two steps raise the quotient by one at most
    have hfar : (a + (e + 1 + 1)) / m ≤ a / m + e + 1 := by
      calc (a + (e + 1 + 1)) / m ≤ (a + e + m) / m := Nat.div_le_div_right (by omega)
        _ = (a + e) / m + 1 := Nat.add_div_right _ (by omega)
        _ ≤ a / m + e + 1 := Nat.succ_le_succ (add_div_le (by omega) a e)
    refine iff_of_false (by omega) ?_
    rintro (h | ⟨h, -⟩) <;> omega

/-- A range touches as many groups of `m * d` units as of `d` units if they are of one size, or if
it stays in one small group, or in two with the end of a large one between them. -/
theorem groupsTouched_mul_iff (hd : 0 < d) {m : ℕ} (hm : 0 < m) {a b : ℕ} (hab : a ≤ b) :
    groupsTouched d a b = groupsTouched (m * d) a b ↔
      m = 1 ∨ b / d = a / d ∨ b / d = a / d + 1 ∧ m ∣ b / d := by
  have hdiv : a / d ≤ b / d := Nat.div_le_div_right hab
  rw [groupsTouched_eq hd hab, groupsTouched_eq (Nat.mul_pos hm hd) hab, mul_comm m d,
    ← Nat.div_div_eq_div_mul, ← Nat.div_div_eq_div_mul]
  by_cases hone : m = 1
  · simp [hone]
  · rw [or_iff_right hone, ← div_sub_div_iff (by omega) hdiv]
    omega

/-- Groups of `u` units and of `v` units, of which one size divides the other, are of one size, or
the range from `a` to `b` stays in one small group, or in two with the end of a large one between
them. -/
def TouchesAlike (u v a b : ℕ) : Prop :=
  max u v / min u v = 1 ∨ b / min u v = a / min u v ∨
    b / min u v = a / min u v + 1 ∧ max u v / min u v ∣ b / min u v

instance (u v a b : ℕ) : Decidable (TouchesAlike u v a b) := inferInstanceAs (Decidable (_ ∨ _))

theorem groupsTouched_eq_iff {u v : ℕ} (hu : 0 < u) (hv : 0 < v) (hdvd : u ∣ v ∨ v ∣ u) {a b : ℕ}
    (hab : a ≤ b) : groupsTouched u a b = groupsTouched v a b ↔ TouchesAlike u v a b := by
  wlog h : u ∣ v generalizing u v with hsymm
  · have hswap := hsymm hv hu hdvd.symm (hdvd.resolve_left h)
    rw [eq_comm, hswap, TouchesAlike, TouchesAlike, max_comm, min_comm]
  · obtain ⟨m, rfl⟩ := h
    have hm : 0 < m := Nat.pos_of_mul_pos_left hv
    have hle : u ≤ u * m := Nat.le_mul_of_pos_right u hm
    rw [TouchesAlike, max_eq_right hle, min_eq_left hle, Nat.mul_div_cancel_left m hu, mul_comm u,
      groupsTouched_mul_iff hu hm hab]

end LinuxDriver
