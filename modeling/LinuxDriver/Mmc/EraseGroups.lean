import LinuxDriver.Mmc.Erase

/-!
# Counting the erase groups of a range

`mmc_init_erase` derives `erase_shift` from the erase size of a card or from the allocation unit of
an SD card, and `mmc_do_erase` uses it to count the groups of a range, on which the timeout of the
erase depends. Some allocation units are no power of two, and an SD card without an allocation unit
may have an erase size of more than one sector. In both cases the groups that are counted are not
those on which the timeout is based.

## Main definitions

* `EraseGeometry`: what decides how a range is divided.
* `mmcInitErase`: `erase_shift` and `pref_erase`.
* `mmcDoEraseQty`: the number of groups that `mmc_do_erase` counts.
* `EraseGeometry.unit`, `EraseGeometry.granule`: the groups that are meant, and those counted.

## Main results

* `mmcDoEraseQty_eq`: what the function counts.
* `mmcDoEraseQty_iff`: when it counts the groups that are meant.
-/

namespace LinuxDriver.Mmc

/-! ### The geometry of a card -/

/-- `ffs` of a 32-bit integer: the position of its lowest bit, counted from one. -/
def ffs (n : ℕ) : ℕ :=
  match (List.range 32).find? (n.testBit ·) with
  | some i => i + 1
  | none => 0

/-- `sd_au_size`, in sectors. -/
def sdAuSize : List ℕ :=
  [0, 32, 64, 128, 256, 512, 1024, 2048, 4096, 8192, 16384, 24576, 32768, 49152, 65536, 131072]

/-- The type of a card, `erase_size`, and the allocation unit `ssr.au`, which is zero if an SD card
does not specify one. -/
structure EraseGeometry where
  sd : Bool
  eraseSize : ℕ
  au : ℕ
  eraseSize_lt : eraseSize < 2 ^ 32
  au_mem : au ∈ sdAuSize

/-- The fields that `mmc_init_erase` sets. -/
structure EraseParams where
  eraseShift : ℕ
  prefErase : ℕ

/-- `pref_erase` of a card without an allocation unit, of `mib` MiB. -/
def prefEraseOf (mib eraseSize : ℕ) : ℕ :=
  let pref :=
    if mib < 128 then 512 * 1024 / 512
    else if mib < 512 then 1024 * 1024 / 512
    else if mib < 1024 then 2 * 1024 * 1024 / 512
    else 4 * 1024 * 1024 / 512
  if pref < eraseSize then eraseSize
  else
    let rem := pref % eraseSize
    if rem ≠ 0 then wrapAdd 32 pref (eraseSize - rem) else pref

/-- `mmc_init_erase`. The size of the card in MiB is the value of `sz` at its start. -/
def mmcInitErase (g : EraseGeometry) (mib : ℕ) : EraseParams :=
  let eraseShift := if g.eraseSize.isPowerOfTwo then ffs g.eraseSize - 1 else 0
  if g.sd ∧ g.au ≠ 0 then ⟨ffs g.au - 1, g.au⟩
  else if g.eraseSize ≠ 0 then ⟨eraseShift, prefEraseOf mib g.eraseSize⟩
  else ⟨eraseShift, 0⟩

/-- The `qty` of `mmc_do_erase` for the inclusive range from `a` to `b`. -/
def mmcDoEraseQty (g : EraseGeometry) (params : EraseParams) (a b : ℕ) : ℕ :=
  if params.eraseShift ≠ 0 then
    wrapAdd 32 (wrapSub 32 (b >>> params.eraseShift) (a >>> params.eraseShift)) 1
  else if g.sd then wrapAdd 32 (wrapSub 32 b a) 1
  else wrapAdd 32 (wrapSub 32 (b / g.eraseSize) (a / g.eraseSize)) 1

/-! ### What is counted -/

namespace EraseGeometry

variable (g : EraseGeometry)

/-- The groups on which the timeout is based: erase groups, or the allocation units of an SD card,
or its sectors if it has no allocation unit. -/
def unit : ℕ := if g.sd then if g.au ≠ 0 then g.au else 1 else g.eraseSize

/-- The groups that are counted: those of an SD card are of a power of two. -/
def granule : ℕ :=
  if g.sd then
    if g.au ≠ 0 then 2 ^ (ffs g.au - 1)
    else if g.eraseSize.isPowerOfTwo then g.eraseSize else 1
  else g.eraseSize

end EraseGeometry

theorem ffs_two_pow {k : ℕ} (hk : k < 32) : ffs (2 ^ k) = k + 1 := by
  have hfind : (List.range 32).find? ((2 ^ k).testBit ·) = some k := by
    rw [List.find?_range_eq_some]
    refine ⟨Nat.testBit_two_pow_self, List.mem_range.mpr hk, fun j hj => ?_⟩
    rw [Nat.testBit_two_pow_of_ne hj.ne']
    rfl
  rw [ffs, hfind]

/-- The shift of a power of two. -/
theorem two_pow_ffs {n : ℕ} (hn : n < 2 ^ 32) (hpow : n.isPowerOfTwo) : 2 ^ (ffs n - 1) = n := by
  obtain ⟨k, rfl⟩ := hpow
  have hk : k < 32 := (Nat.pow_lt_pow_iff_right (by norm_num)).mp hn
  rw [ffs_two_pow hk, Nat.add_sub_cancel]

/-- An allocation unit is its largest power of two, or three times that. -/
theorem au_eq {au : ℕ} (hau : au ∈ sdAuSize) (hne : au ≠ 0) :
    (au = 2 ^ (ffs au - 1) ∨ au = 3 * 2 ^ (ffs au - 1)) ∧ ffs au - 1 ≠ 0 := by
  have hall : ∀ n ∈ sdAuSize, n ≠ 0 →
      (n = 2 ^ (ffs n - 1) ∨ n = 3 * 2 ^ (ffs n - 1)) ∧ ffs n - 1 ≠ 0 := by decide
  exact hall au hau hne

/-- **The shift.** It is that of the groups that are counted, or they are single sectors or the
erase groups of an MMC card. -/
theorem granule_eq (g : EraseGeometry) (mib : ℕ) :
    g.granule =
      if (mmcInitErase g mib).eraseShift ≠ 0 then 2 ^ (mmcInitErase g mib).eraseShift
      else if g.sd then 1 else g.eraseSize := by
  by_cases hau : g.sd ∧ g.au ≠ 0
  · obtain ⟨hsd, hne⟩ := hau
    simp [EraseGeometry.granule, mmcInitErase, hsd, hne, (au_eq g.au_mem hne).2]
  · have hshift : (mmcInitErase g mib).eraseShift =
        if g.eraseSize.isPowerOfTwo then ffs g.eraseSize - 1 else 0 := by
      simp only [mmcInitErase, if_neg hau]
      split <;> rfl
    have hgranule : g.granule =
        if g.sd then if g.eraseSize.isPowerOfTwo then g.eraseSize else 1 else g.eraseSize := by
      rw [EraseGeometry.granule]
      split_ifs with hsd hne <;> first | rfl | exact absurd ⟨hsd, hne⟩ hau
    rw [hshift, hgranule]
    by_cases hpow : g.eraseSize.isPowerOfTwo
    · have hsize := two_pow_ffs g.eraseSize_lt hpow
      simp only [if_pos hpow, hsize, ite_self]
      split_ifs with hzero
      · rfl
      · rw [← hsize, not_not.mp hzero, pow_zero]
      · rfl
    · simp [if_neg hpow]

theorem granule_pos (g : EraseGeometry) (hpos : g.sd = false → 0 < g.eraseSize) :
    0 < g.granule := by
  rw [granule_eq g 0]
  split_ifs with hshift hsd
  · exact Nat.two_pow_pos _
  · exact Nat.one_pos
  · exact hpos (Bool.eq_false_iff.mpr hsd)

/-- The difference of two quotients, and one, in 32 bits. -/
theorem wrapAdd_wrapSub_one {a b : ℕ} (hab : a ≤ b) (hb : b < 2 ^ 32) :
    wrapAdd 32 (wrapSub 32 b a) 1 = (b - a + 1) % 2 ^ 32 := by
  rw [wrapSub_of_le hb hab, wrapAdd]

/-- **What is counted.** -/
theorem mmcDoEraseQty_eq (g : EraseGeometry) (mib : ℕ) (hpos : g.sd = false → 0 < g.eraseSize)
    {a b : ℕ} (hab : a ≤ b) (hb : b < 2 ^ 32) :
    mmcDoEraseQty g (mmcInitErase g mib) a b = groupsTouched g.granule a b % 2 ^ 32 := by
  have hquot (d : ℕ) : wrapAdd 32 (wrapSub 32 (b / d) (a / d)) 1 = (b / d - a / d + 1) % 2 ^ 32 :=
    wrapAdd_wrapSub_one (Nat.div_le_div_right hab) ((Nat.div_le_self b d).trans_lt hb)
  rw [groupsTouched_eq (granule_pos g hpos) hab, granule_eq g mib, mmcDoEraseQty]
  split_ifs with hshift hsd
  · rw [Nat.shiftRight_eq_div_pow, Nat.shiftRight_eq_div_pow, hquot]
  · rw [wrapAdd_wrapSub_one hab hb, Nat.div_one, Nat.div_one]
  · exact hquot g.eraseSize

/-! ### What is meant -/

theorem unit_pos (g : EraseGeometry) (hpos : g.sd = false → 0 < g.eraseSize) : 0 < g.unit := by
  rw [EraseGeometry.unit]
  split_ifs with hsd hau
  · exact Nat.pos_of_ne_zero hau
  · exact Nat.one_pos
  · exact hpos (Bool.eq_false_iff.mpr hsd)

/-- The groups that are counted are parts of those that are meant, or consist of them. -/
theorem granule_dvd (g : EraseGeometry) : g.granule ∣ g.unit ∨ g.unit ∣ g.granule := by
  rw [EraseGeometry.granule, EraseGeometry.unit]
  split_ifs with hsd hau hpow
  · obtain ⟨heq | heq, -⟩ := au_eq g.au_mem hau
    · exact .inl (heq ▸ dvd_rfl)
    · exact .inl (Dvd.intro_left 3 heq.symm)
  · exact .inr (one_dvd _)
  · exact .inl dvd_rfl
  · exact .inl dvd_rfl

/-- Only all `2 ^ 32` sectors one by one are more than 32 bits can count. -/
theorem groupsTouched_lt {d a b : ℕ} (hd : 0 < d) (hab : a ≤ b) (hb : b < 2 ^ 32)
    (h : ¬(d = 1 ∧ a = 0 ∧ b = 2 ^ 32 - 1)) : groupsTouched d a b < 2 ^ 32 := by
  rw [groupsTouched_eq hd hab]
  by_cases hone : d = 1
  · rw [hone, Nat.div_one, Nat.div_one]
    omega
  · have hhalf : b / d - a / d ≤ b / 2 :=
      (Nat.sub_le _ _).trans (Nat.div_le_div_left (by omega) (by norm_num))
    omega

/-- **The timeout's groups.** `mmc_do_erase` counts the groups that the range intersects, if and
only if it counts groups that the range touches alike, and does not count all sectors one by one. -/
theorem mmcDoEraseQty_iff (g : EraseGeometry) (mib : ℕ) (hpos : g.sd = false → 0 < g.eraseSize)
    {a b : ℕ} (hab : a ≤ b) (hb : b < 2 ^ 32) :
    mmcDoEraseQty g (mmcInitErase g mib) a b = groupsTouched g.unit a b ↔
      TouchesAlike g.granule g.unit a b ∧ ¬(g.granule = 1 ∧ a = 0 ∧ b = 2 ^ 32 - 1) := by
  have hgranule := granule_pos g hpos
  have hunit := unit_pos g hpos
  rw [mmcDoEraseQty_eq g mib hpos hab hb]
  by_cases hall : g.granule = 1 ∧ a = 0 ∧ b = 2 ^ 32 - 1
  · obtain ⟨hone, rfl, rfl⟩ := hall
    refine iff_of_false ?_ (fun h => h.2 ⟨hone, rfl, rfl⟩)
    rw [hone, groupsTouched_eq Nat.one_pos hab, groupsTouched_eq hunit hab]
    norm_num
  · rw [Nat.mod_eq_of_lt (groupsTouched_lt hgranule hab hb hall), and_iff_left hall]
    exact groupsTouched_eq_iff hgranule hunit (granule_dvd g) hab

/-- An SD card with allocation units of 12 MiB, erased from the first to the last sector of a part
of 4 MiB. -/
theorem mmcDoEraseQty_iff_sample :
    mmcDoEraseQty ⟨true, 1, 24576, by decide, by decide⟩
      (mmcInitErase ⟨true, 1, 24576, by decide, by decide⟩ 30000) 8192 16383 =
      groupsTouched (EraseGeometry.unit ⟨true, 1, 24576, by decide, by decide⟩) 8192 16383 :=
  (mmcDoEraseQty_iff ⟨true, 1, 24576, by decide, by decide⟩ 30000 (by decide) (by decide)
    (by decide)).mpr (by decide)

/-- The whole of the first unit of 12 MiB is counted as three. -/
theorem mmcDoEraseQty_thirds :
    ¬∀ (g : EraseGeometry) (mib a b : ℕ), (g.sd = false → 0 < g.eraseSize) → a ≤ b →
      b < 2 ^ 32 → mmcDoEraseQty g (mmcInitErase g mib) a b = groupsTouched g.unit a b := by
  rintro h
  have hcount := h ⟨true, 1, 24576, by decide, by decide⟩ 30000 0 24575 (by decide) (by decide)
    (by decide)
  have hmeant : groupsTouched (EraseGeometry.unit ⟨true, 1, 24576, by decide, by decide⟩) 0 24575 =
      1 := groupsTouched_eq (by decide) (by decide)
  rw [hmeant] at hcount
  exact absurd hcount (by decide)

end LinuxDriver.Mmc
