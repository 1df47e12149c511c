import LinuxDriver.Alignment
import LinuxDriver.Kernel

/-!
# Erasing sectors of an MMC card

`mmc_erase` checks that the card can carry out the command, cuts a plain erase down to whole erase
groups with `mmc_align_erase_size`, and passes inclusive ranges of sectors to `mmc_do_erase`. With
`eg_boundary` set, a trim that crosses the end of its first erase group is split there.

The second part of a split is dropped when it is a single sector: `to` is inclusive by then, and
`to <= from` holds of the one sector that is left.

## Main definitions

* `EraseCard`: what the erase functions read of a card and its host.
* `mmcAlignEraseSize`, `mmcErase`.
* `mmcCanTrim`, `mmcCanSecureEraseTrim`, `mmcEraseGroupAligned`.
* `ErasesExactly`: the ranges are disjoint, stay inside the request and cover what was asked for.

## Main results

* `mmcErase_inside`: no sector outside the request is passed to `mmc_do_erase`.
* `mmcErase_exact_iff`: a successful call erases exactly what was asked for if and only if no split
  leaves a single sector.
-/

namespace LinuxDriver.Mmc

/-! ### Arguments and capabilities -/

def mmcEraseArg : ℕ := 0x00000000
def mmcSecureEraseArg : ℕ := 0x80000000
def mmcTrimArg : ℕ := 0x00000001
def mmcDiscardArg : ℕ := 0x00000003
def mmcSecureTrim1Arg : ℕ := 0x80000001
def mmcSecureTrim2Arg : ℕ := 0x80008000

/-- `MMC_SECURE_ARGS`, the mask of the secure commands. -/
def mmcSecureArgs : ℕ := 0x80000000

/-- `MMC_TRIM_ARGS`, the mask of the commands that need not keep to erase groups. -/
def mmcTrimArgs : ℕ := 0x00008001

/-- What the erase functions read of a card and its host: `MMC_CAP_ERASE`, `CCC_ERASE`, the type of
the card, the bits `EXT_CSD_SEC_ER_EN` and `EXT_CSD_SEC_GB_CL_EN` of `sec_feature_support`, the
quirks, and the geometry. -/
structure EraseCard where
  capErase : Bool
  cccErase : Bool
  sd : Bool
  secErEn : Bool
  secGbClEn : Bool
  trimBroken : Bool
  secEraseTrimBroken : Bool
  inandCmd38 : Bool
  eraseSize : ℕ
  egBoundary : Bool
  eraseSize_lt : eraseSize < 2 ^ 32

/-- `mmc_can_trim` -/
def mmcCanTrim (card : EraseCard) : Bool := card.secGbClEn && !card.trimBroken

/-- `mmc_can_secure_erase_trim` -/
def mmcCanSecureEraseTrim (card : EraseCard) : Bool := card.secErEn && !card.secEraseTrimBroken

/-- `mmc_erase_group_aligned`, with the first sector `start`. -/
def mmcEraseGroupAligned (card : EraseCard) (start nr : ℕ) : Bool :=
  if card.eraseSize = 0 then false
  else if start % card.eraseSize ≠ 0 ∨ nr % card.eraseSize ≠ 0 then false
  else true

/-! ### The functions -/

/-- The end of `mmc_align_erase_size`: `nr`, and the new values of `*from` and `*to`. -/
def alignedSize (start stop fromNew nrNew : ℕ) : ℕ × ℕ × ℕ :=
  if nrNew = 0 then (0, start, stop) else (nrNew, fromNew, wrapAdd 32 fromNew nrNew)

/-- `mmc_align_erase_size`, with the values `start` and `stop` of `*from` and `*to` before the
call: its result, and their values after it. -/
def mmcAlignEraseSize (card : EraseCard) (start stop nr : ℕ) : ℕ × ℕ × ℕ :=
  let size := card.eraseSize
  if size.isPowerOfTwo then
    let fromNew := roundUp 32 start size
    let rem := wrapSub 32 fromNew start
    if rem < nr then alignedSize start stop fromNew (roundDown 32 (nr - rem) size)
    else (0, start, stop)
  else
    let rem := start % size
    if rem ≠ 0 then
      let rem := size - rem
      if rem < nr then
        alignedSize start stop (wrapAdd 32 start rem) ((nr - rem) - (nr - rem) % size)
      else (0, start, stop)
    else alignedSize start stop start (nr - nr % size)

/-- `rem`: the sectors from `start` to the end of its erase group. -/
def groupRest (card : EraseCard) (start : ℕ) : ℕ := card.eraseSize - start % card.eraseSize

/-- The end of `mmc_erase`, from the test of `nr` on: its result, and the inclusive ranges that it
passes to `mmc_do_erase`, which returns `doErase` of the range. -/
def eraseRange (card : EraseCard) (doErase : ℕ → ℕ → ℤ) (start stop nr arg : ℕ) :
    ℤ × List (ℕ × ℕ) :=
  if nr = 0 then (0, [])
  else if stop ≤ start then (-einval, [])
  else
    let stop := stop - 1
    let rem := groupRest card start
    if arg &&& mmcTrimArgs ≠ 0 ∧ card.egBoundary ∧ rem < nr then
      let last := wrapSub 32 (wrapAdd 32 start rem) 1
      let err := doErase start last
      let next := wrapAdd 32 start rem
      if err ≠ 0 ∨ stop ≤ next then (err, [(start, last)])
      else (doErase next stop, [(start, last), (next, stop)])
    else (doErase start stop, [(start, stop)])

/-- `mmc_erase`, with the first sector `start`. -/
def mmcErase (card : EraseCard) (doErase : ℕ → ℕ → ℤ) (start nr arg : ℕ) : ℤ × List (ℕ × ℕ) :=
  let stop := wrapAdd 32 start nr
  if ¬card.capErase ∨ ¬card.cccErase then (-eopnotsupp, [])
  else if card.eraseSize = 0 then (-eopnotsupp, [])
  else if card.sd ∧ arg ≠ mmcEraseArg then (-eopnotsupp, [])
  else if arg &&& mmcSecureArgs ≠ 0 ∧ ¬card.secErEn then (-eopnotsupp, [])
  else if arg &&& mmcTrimArgs ≠ 0 ∧ ¬card.secGbClEn then (-eopnotsupp, [])
  else if arg = mmcSecureEraseArg ∧ (start % card.eraseSize ≠ 0 ∨ nr % card.eraseSize ≠ 0) then
    (-einval, [])
  else if arg = mmcEraseArg then
    let aligned := mmcAlignEraseSize card start stop nr
    eraseRange card doErase aligned.2.1 aligned.2.2 aligned.1 arg
  else eraseRange card doErase start stop nr arg

/-! ### What was asked for -/

/-- The sectors that a call has to erase: whole erase groups with `MMC_ERASE_ARG`, and all sectors
of the request with the other arguments. -/
def eraseTarget (card : EraseCard) (start nr arg : ℕ) : Set ℕ :=
  if arg = mmcEraseArg then alignedPart card.eraseSize start nr else Set.Ico start (start + nr)

/-- The inclusive ranges are disjoint, and together they are the target. -/
structure ErasesExactly (target : Set ℕ) (ranges : List (ℕ × ℕ)) : Prop where
  disjoint : ranges.Pairwise fun p q => Disjoint (Set.Icc p.1 p.2) (Set.Icc q.1 q.2)
  union : {s | ∃ p ∈ ranges, s ∈ Set.Icc p.1 p.2} = target

/-- A split at the end of the first erase group leaves a single sector. -/
def LeavesOneSector (card : EraseCard) (start nr arg : ℕ) : Prop :=
  arg &&& mmcTrimArgs ≠ 0 ∧ card.egBoundary = true ∧ nr = groupRest card start + 1

/-! ### The alignment of a plain erase -/

section Align

variable {card : EraseCard} {start nr : ℕ}

/-- The ends of the aligned part of a request. -/
def alignedStart (card : EraseCard) (start : ℕ) : ℕ :=
  (start + (card.eraseSize - 1)) / card.eraseSize * card.eraseSize

def alignedStop (card : EraseCard) (start nr : ℕ) : ℕ :=
  (start + nr) / card.eraseSize * card.eraseSize

theorem alignedStop_le : alignedStop card start nr ≤ start + nr := Nat.div_mul_le_self _ _

/-- What is left of the request above the first aligned sector, rounded down. -/
theorem sub_alignedStart_div_mul (nr : ℕ) (hle : start ≤ alignedStart card start) :
    (nr - (alignedStart card start - start)) / card.eraseSize * card.eraseSize =
      alignedStop card start nr - alignedStart card start := by
  have hsub : nr - (alignedStart card start - start) = start + nr - alignedStart card start := by
    omega
  rw [hsub]
  exact sub_mul_div_mul _ _

theorem alignedSize_eq (card : EraseCard) (h : start + nr < 2 ^ 32) (stop : ℕ) :
    alignedSize start stop (alignedStart card start)
        (alignedStop card start nr - alignedStart card start) =
      if alignedStop card start nr ≤ alignedStart card start then (0, start, stop)
      else (alignedStop card start nr - alignedStart card start, alignedStart card start,
        alignedStop card start nr) := by
  have hle : alignedStop card start nr ≤ start + nr := alignedStop_le
  by_cases hempty : alignedStop card start nr ≤ alignedStart card start
  · rw [if_pos hempty, alignedSize, if_pos (by omega)]
  · have hsum : alignedStart card start +
        (alignedStop card start nr - alignedStart card start) = alignedStop card start nr := by
      omega
    rw [if_neg hempty, alignedSize, if_neg (by omega), wrapAdd_of_lt (by omega), hsum]

/-- **Both ways of aligning agree.** -/
theorem mmcAlignEraseSize_eq (hd : 0 < card.eraseSize) (h : start + nr < 2 ^ 32) (stop : ℕ) :
    mmcAlignEraseSize card start stop nr =
      if alignedStop card start nr ≤ alignedStart card start then (0, start, stop)
      else (alignedStop card start nr - alignedStart card start, alignedStart card start,
        alignedStop card start nr) := by
  have hlt := card.eraseSize_lt
  have hle : start ≤ alignedStart card start := le_ceil_mul hd start
  have hstop : alignedStop card start nr ≤ start + nr := alignedStop_le
  have hsmall : nr ≤ alignedStart card start - start →
      alignedStop card start nr ≤ alignedStart card start := by omega
  by_cases hpow : card.eraseSize.isPowerOfTwo
  · obtain ⟨k, hk⟩ := id hpow
    have hkw : k < 32 := (Nat.pow_lt_pow_iff_right (by norm_num)).mp (hk ▸ hlt)
    have hround : roundUp 32 start card.eraseSize = alignedStart card start % 2 ^ 32 := by
      rw [alignedStart, hk]
      exact roundUp_two_pow (by omega) hkw
    have hnear : alignedStart card start - start < 2 ^ 32 := by
      have hdiv : alignedStart card start ≤ start + (card.eraseSize - 1) :=
        Nat.div_mul_le_self _ _
      omega
    have hrem : wrapSub 32 (roundUp 32 start card.eraseSize) start =
        alignedStart card start - start := by
      rw [hround]
      exact wrapSub_mod (by omega) hle hnear
    simp only [mmcAlignEraseSize, if_pos hpow, hrem]
    by_cases hrest : alignedStart card start - start < nr
    · have hexact : alignedStart card start % 2 ^ 32 = alignedStart card start :=
        Nat.mod_eq_of_lt (by omega)
      have hdown : roundDown 32 (nr - (alignedStart card start - start)) card.eraseSize =
          alignedStop card start nr - alignedStart card start := by
        rw [← sub_alignedStart_div_mul nr hle, hk]
        exact roundDown_two_pow (by omega) hkw
      rw [if_pos hrest, hround, hexact, hdown, alignedSize_eq card h]
    · rw [if_neg hrest, if_pos (hsmall (not_lt.mp hrest))]
  · have hdown : ∀ m, m - m % card.eraseSize = m / card.eraseSize * card.eraseSize := by
      intro m
      have hdiv : m / card.eraseSize * card.eraseSize + m % card.eraseSize = m :=
        Nat.div_add_mod' m _
      omega
    simp only [mmcAlignEraseSize, if_neg hpow, hdown]
    by_cases hmod : start % card.eraseSize = 0
    · have hstart : alignedStart card start = start := ceil_mul_of_mod_eq_zero hd hmod
      have hnr := sub_alignedStart_div_mul nr hle
      have heq := alignedSize_eq card h stop
      rw [hstart, Nat.sub_self, Nat.sub_zero] at hnr
      rw [hstart] at heq
      rw [if_neg (not_not.mpr hmod), hnr, hstart, heq]
    · have hstart : alignedStart card start =
          start + (card.eraseSize - start % card.eraseSize) := ceil_mul_of_mod_ne_zero hd hmod
      have hrem : alignedStart card start - start =
          card.eraseSize - start % card.eraseSize := by omega
      have hnr := sub_alignedStart_div_mul nr hle
      rw [hrem] at hnr hsmall
      rw [if_pos hmod, hnr]
      by_cases hrest : card.eraseSize - start % card.eraseSize < nr
      · rw [if_pos hrest, wrapAdd_of_lt (by omega), ← hstart, alignedSize_eq card h]
      · rw [if_neg hrest, if_pos (hsmall (not_lt.mp hrest))]

end Align

/-! ### The ranges of one call -/

section Range

variable {card : EraseCard} {doErase : ℕ → ℕ → ℤ} {start nr arg : ℕ}

/-- The test for the split at the end of the first erase group. -/
def Splits (card : EraseCard) (start nr arg : ℕ) : Prop :=
  arg &&& mmcTrimArgs ≠ 0 ∧ card.egBoundary = true ∧ groupRest card start < nr

theorem groupRest_pos (hd : 0 < card.eraseSize) : 0 < groupRest card start :=
  Nat.sub_pos_of_lt (Nat.mod_lt start hd)

theorem leavesOneSector_iff :
    LeavesOneSector card start nr arg ↔
      Splits card start nr arg ∧ nr = groupRest card start + 1 := by
  constructor
  · rintro ⟨htrim, hboundary, hnr⟩
    exact ⟨⟨htrim, hboundary, hnr ▸ Nat.lt_succ_self _⟩, hnr⟩
  · rintro ⟨⟨htrim, hboundary, -⟩, hnr⟩
    exact ⟨htrim, hboundary, hnr⟩

/-- A plain erase is never split. -/
theorem not_splits_eraseArg : ¬Splits card start nr mmcEraseArg := by
  rintro ⟨htrim, -, -⟩
  exact htrim (Nat.zero_and _)

theorem eraseRange_whole (hnr : 0 < nr) (h : ¬Splits card start nr arg) :
    eraseRange card doErase start (start + nr) nr arg =
      (doErase start (start + nr - 1), [(start, start + nr - 1)]) := by
  rw [eraseRange, if_neg (by omega), if_neg (by omega)]
  exact if_neg h

theorem eraseRange_split (hd : 0 < card.eraseSize) (hend : start + nr < 2 ^ 32)
    (h : Splits card start nr arg) :
    eraseRange card doErase start (start + nr) nr arg =
      if doErase start (start + groupRest card start - 1) ≠ 0 ∨
          nr = groupRest card start + 1 then
        (doErase start (start + groupRest card start - 1),
          [(start, start + groupRest card start - 1)])
      else (doErase (start + groupRest card start) (start + nr - 1),
        [(start, start + groupRest card start - 1),
          (start + groupRest card start, start + nr - 1)]) := by
  have hpos : 0 < groupRest card start := groupRest_pos hd
  have hrest : groupRest card start < nr := h.2.2
  have hnext : wrapAdd 32 start (groupRest card start) = start + groupRest card start :=
    wrapAdd_of_lt (by omega)
  have hlast : wrapSub 32 (start + groupRest card start) 1 = start + groupRest card start - 1 :=
    wrapSub_of_le (by omega) (by omega)
  have hone : start + nr - 1 ≤ start + groupRest card start ↔
      nr = groupRest card start + 1 := by omega
  rw [eraseRange, if_neg (by omega), if_neg (by omega)]
  simp only [hnext, hlast, hone]
  exact if_pos h

/-- No range of a call leaves the sectors that it was called with. -/
theorem eraseRange_inside (hd : 0 < card.eraseSize) (hnr : 0 < nr) (hend : start + nr < 2 ^ 32) :
    ∀ p ∈ (eraseRange card doErase start (start + nr) nr arg).2,
      Set.Icc p.1 p.2 ⊆ Set.Ico start (start + nr) := by
  have hpos : 0 < groupRest card start := groupRest_pos hd
  have hsub : ∀ a b, start ≤ a → b < start + nr →
      Set.Icc a b ⊆ Set.Ico start (start + nr) := fun a b ha hb s hs =>
    ⟨ha.trans hs.1, hs.2.trans_lt hb⟩
  intro p hp
  by_cases h : Splits card start nr arg
  · have hrest : groupRest card start < nr := h.2.2
    rw [eraseRange_split hd hend h] at hp
    split at hp
    · obtain rfl := List.mem_singleton.mp hp
      exact hsub _ _ le_rfl (by omega)
    · rcases List.mem_pair.mp hp with rfl | rfl
      · exact hsub _ _ le_rfl (by omega)
      · exact hsub _ _ (by omega) (by omega)
  · rw [eraseRange_whole hnr h] at hp
    obtain rfl := List.mem_singleton.mp hp
    exact hsub _ _ le_rfl (by omega)

/-- The ranges of a call all of whose erases succeed are the sectors that it was called with,
unless a split leaves one sector. -/
theorem eraseRange_exact_iff (hd : 0 < card.eraseSize) (hnr : 0 < nr)
    (hend : start + nr < 2 ^ 32)
    (hok : ∀ p ∈ (eraseRange card doErase start (start + nr) nr arg).2, doErase p.1 p.2 = 0) :
    ErasesExactly (Set.Ico start (start + nr))
        (eraseRange card doErase start (start + nr) nr arg).2 ↔
      ¬LeavesOneSector card start nr arg := by
  rw [leavesOneSector_iff]
  by_cases h : Splits card start nr arg
  · have hpos : 0 < groupRest card start := groupRest_pos hd
    have hrest : groupRest card start < nr := h.2.2
    rw [eraseRange_split hd hend h] at hok ⊢
    by_cases hone : nr = groupRest card start + 1
    · -- the sector after the first erase group is not in the only range
      refine iff_of_false (fun hexact => ?_) (not_not.mpr ⟨h, hone⟩)
      have hmem : start + nr - 1 ∈ Set.Ico start (start + nr) := ⟨by omega, by omega⟩
      rw [← hexact.union, if_pos (.inr hone)] at hmem
      obtain ⟨p, hp, hs⟩ := hmem
      obtain rfl := List.mem_singleton.mp hp
      have hle : start + nr - 1 ≤ start + groupRest card start - 1 := hs.2
      omega
    · refine iff_of_true ?_ fun hleaves => hone hleaves.2
      have hfirst : doErase start (start + groupRest card start - 1) = 0 := by
        by_contra hfail
        rw [if_pos (.inl hfail)] at hok
        exact hfail (hok _ (List.mem_singleton_self _))
      rw [if_neg (by simp [hfirst, hone])]
      constructor
      · refine List.pairwise_pair.mpr (Set.disjoint_left.mpr fun s hs hs' => ?_)
        have hle : s ≤ start + groupRest card start - 1 := hs.2
        have hge : start + groupRest card start ≤ s := hs'.1
        omega
      · ext s
        simp only [List.mem_cons, List.not_mem_nil, or_false, exists_eq_or_imp, exists_eq_left,
          Set.mem_ofPred_eq, Set.mem_Icc, Set.mem_Ico]
        omega
  · rw [eraseRange_whole hnr h]
    refine iff_of_true ⟨List.pairwise_singleton _ _, ?_⟩ fun hleaves => h hleaves.1
    ext s
    simp only [List.mem_singleton, exists_eq_left, Set.mem_ofPred_eq, Set.mem_Icc, Set.mem_Ico]
    omega

end Range

/-! ### Whole calls -/

section Call

variable {card : EraseCard} {doErase : ℕ → ℕ → ℤ} {start nr arg : ℕ}

/-- The part of a request that is erased: `m` sectors from `a` on, which are those asked for. -/
structure ErasedPart (card : EraseCard) (start nr arg a m : ℕ) : Prop where
  size : 0 < card.eraseSize
  pos : 0 < m
  le : start ≤ a
  end_le : a + m ≤ start + nr
  target : eraseTarget card start nr arg = Set.Ico a (a + m)
  leaves : LeavesOneSector card a m arg ↔ LeavesOneSector card start nr arg

theorem erasedPart_whole (hd : 0 < card.eraseSize) (hnr : 0 < nr) (harg : arg ≠ mmcEraseArg) :
    ErasedPart card start nr arg start nr where
  size := hd
  pos := hnr
  le := le_rfl
  end_le := le_rfl
  target := if_neg harg
  leaves := Iff.rfl

/-- The aligned part of a request, where it is not empty. -/
theorem erasedPart_aligned (hd : 0 < card.eraseSize)
    (hfull : ¬alignedStop card start nr ≤ alignedStart card start) :
    ErasedPart card start nr mmcEraseArg (alignedStart card start)
      (alignedStop card start nr - alignedStart card start) where
  size := hd
  pos := Nat.sub_pos_of_lt (not_le.mp hfull)
  le := le_ceil_mul hd start
  end_le := by
    have hstop : alignedStop card start nr ≤ start + nr := alignedStop_le
    omega
  target := by
    rw [eraseTarget, if_pos rfl, Nat.add_sub_cancel' (by omega)]
    exact alignedPart_eq_Ico hd
  leaves :=
    iff_of_false (fun h => not_splits_eraseArg (leavesOneSector_iff.mp h).1)
      fun h => not_splits_eraseArg (leavesOneSector_iff.mp h).1

/-- What `mmc_erase` does: it refuses; or there is no whole erase group; or it erases the part that
was asked for. -/
theorem mmcErase_cases (card : EraseCard) (doErase : ℕ → ℕ → ℤ) (arg : ℕ) (hnr : 0 < nr)
    (hend : start + nr < 2 ^ 32) :
    (∃ e, e ≠ 0 ∧ mmcErase card doErase start nr arg = (e, [])) ∨
    (arg = mmcEraseArg ∧ eraseTarget card start nr arg = ∅ ∧
      mmcErase card doErase start nr arg = (0, [])) ∨
    ∃ a m, ErasedPart card start nr arg a m ∧
      mmcErase card doErase start nr arg = eraseRange card doErase a (a + m) m arg := by
  have hopnotsupp : -eopnotsupp ≠ 0 := by decide
  have hinval : -einval ≠ 0 := by decide
  have hstop : wrapAdd 32 start nr = start + nr := wrapAdd_of_lt hend
  simp only [mmcErase, hstop]
  by_cases hcaps : ¬card.capErase ∨ ¬card.cccErase
  · exact .inl ⟨_, hopnotsupp, by rw [if_pos hcaps]⟩
  by_cases hsize : card.eraseSize = 0
  · exact .inl ⟨_, hopnotsupp, by rw [if_neg hcaps, if_pos hsize]⟩
  rw [if_neg hcaps, if_neg hsize]
  by_cases hsd : card.sd ∧ arg ≠ mmcEraseArg
  · exact .inl ⟨_, hopnotsupp, by rw [if_pos hsd]⟩
  by_cases hsecure : arg &&& mmcSecureArgs ≠ 0 ∧ ¬card.secErEn
  · exact .inl ⟨_, hopnotsupp, by rw [if_neg hsd, if_pos hsecure]⟩
  by_cases htrim : arg &&& mmcTrimArgs ≠ 0 ∧ ¬card.secGbClEn
  · exact .inl ⟨_, hopnotsupp, by rw [if_neg hsd, if_neg hsecure, if_pos htrim]⟩
  rw [if_neg hsd, if_neg hsecure, if_neg htrim]
  by_cases haligned :
      arg = mmcSecureEraseArg ∧ (start % card.eraseSize ≠ 0 ∨ nr % card.eraseSize ≠ 0)
  · exact .inl ⟨_, hinval, by rw [if_pos haligned]⟩
  have hd : 0 < card.eraseSize := Nat.pos_of_ne_zero hsize
  rw [if_neg haligned]
  by_cases harg : arg = mmcEraseArg
  · subst harg
    rw [if_pos rfl, mmcAlignEraseSize_eq hd hend]
    by_cases hempty : alignedStop card start nr ≤ alignedStart card start
    · refine .inr (.inl ⟨rfl, ?_, by rw [if_pos hempty]; rfl⟩)
      rw [eraseTarget, if_pos rfl]
      exact (alignedPart_eq_Ico hd).trans (Set.Ico_eq_empty (not_lt.mpr hempty))
    · refine .inr (.inr ⟨_, _, erasedPart_aligned hd hempty, ?_⟩)
      rw [if_neg hempty, Nat.add_sub_cancel' (not_le.mp hempty).le]
  · exact .inr (.inr ⟨start, nr, erasedPart_whole hd hnr harg, by rw [if_neg harg]⟩)

/-- **No sector outside the request is ever passed to `mmc_do_erase`**, whatever it returns. -/
theorem mmcErase_inside (card : EraseCard) (doErase : ℕ → ℕ → ℤ) (arg : ℕ) (hnr : 0 < nr)
    (hend : start + nr < 2 ^ 32) :
    ∀ p ∈ (mmcErase card doErase start nr arg).2,
      Set.Icc p.1 p.2 ⊆ Set.Ico start (start + nr) := by
  intro p hp
  rcases mmcErase_cases card doErase arg hnr hend with
    ⟨e, -, hcall⟩ | ⟨-, -, hcall⟩ | ⟨a, m, hpart, hcall⟩
  · rw [hcall] at hp
    exact absurd hp List.not_mem_nil
  · rw [hcall] at hp
    exact absurd hp List.not_mem_nil
  · rw [hcall] at hp
    have hlt : a + m < 2 ^ 32 := hpart.end_le.trans_lt hend
    exact (eraseRange_inside hpart.size hpart.pos hlt p hp).trans
      (Set.Ico_subset_Ico hpart.le hpart.end_le)

/-- **Exact erasing.** A call that returns `0` after all its erases succeeded has passed exactly
the sectors that it was asked to erase, in disjoint ranges and none outside the request, if and
only if no split at an erase group left a single sector. -/
theorem mmcErase_exact_iff (card : EraseCard) (doErase : ℕ → ℕ → ℤ) {start nr arg : ℕ}
    (hnr : 0 < nr) (hend : start + nr ≤ 2 ^ 32 - 1)
    (hret : (mmcErase card doErase start nr arg).1 = 0)
    (hok : ∀ p ∈ (mmcErase card doErase start nr arg).2, doErase p.1 p.2 = 0) :
    (ErasesExactly (eraseTarget card start nr arg) (mmcErase card doErase start nr arg).2 ∧
      ∀ p ∈ (mmcErase card doErase start nr arg).2,
        Set.Icc p.1 p.2 ⊆ Set.Ico start (start + nr)) ↔
      ¬LeavesOneSector card start nr arg := by
  have hlt : start + nr < 2 ^ 32 := by omega
  rw [and_iff_left (mmcErase_inside card doErase arg hnr hlt)]
  rcases mmcErase_cases card doErase arg hnr hlt with
    ⟨e, he, hcall⟩ | ⟨rfl, htarget, hcall⟩ | ⟨a, m, hpart, hcall⟩
  · rw [hcall] at hret
    exact absurd hret he
  · rw [htarget, hcall]
    refine iff_of_true ⟨List.Pairwise.nil, by simp⟩ fun h => ?_
    exact not_splits_eraseArg (leavesOneSector_iff.mp h).1
  · have hlt' : a + m < 2 ^ 32 := hpart.end_le.trans_lt hlt
    rw [hcall] at hok ⊢
    rw [hpart.target, ← hpart.leaves]
    exact eraseRange_exact_iff hpart.size hpart.pos hlt' hok

end Call

/-- A card with erase groups of four sectors, of which one fits in the timeout of its host. -/
def eraseSampleCard : EraseCard where
  capErase := true
  cccErase := true
  sd := false
  secErEn := true
  secGbClEn := true
  trimBroken := false
  secEraseTrimBroken := false
  inandCmd38 := false
  eraseSize := 4
  egBoundary := true
  eraseSize_lt := by norm_num

/-- A trim of the sectors `2` to `8` is split after the sector `3`. -/
theorem mmcErase_exact_iff_sample :
    ErasesExactly (eraseTarget eraseSampleCard 2 7 mmcTrimArg)
      (mmcErase eraseSampleCard (fun _ _ => 0) 2 7 mmcTrimArg).2 :=
  ((mmcErase_exact_iff eraseSampleCard (fun _ _ => 0) (by decide) (by decide) (by decide)
    fun _ _ => rfl).mpr fun h => absurd h.2.2 (by decide)).1

/-- **The sector after the split.** A trim of the sectors `0` to `4` succeeds, and the sector `4`
is not erased. -/
theorem mmcErase_drops_sector :
    mmcErase eraseSampleCard (fun _ _ => 0) 0 5 mmcTrimArg = (0, [(0, 3)]) ∧
      ¬ErasesExactly (eraseTarget eraseSampleCard 0 5 mmcTrimArg)
        (mmcErase eraseSampleCard (fun _ _ => 0) 0 5 mmcTrimArg).2 := by
  have hcall : mmcErase eraseSampleCard (fun _ _ => 0) 0 5 mmcTrimArg = (0, [(0, 3)]) := by decide
  refine ⟨hcall, fun hexact => ?_⟩
  have hmem : 4 ∈ eraseTarget eraseSampleCard 0 5 mmcTrimArg := by
    rw [eraseTarget, if_neg (by decide)]
    exact ⟨by decide, by decide⟩
  rw [← hexact.union, hcall] at hmem
  obtain ⟨p, hp, hs⟩ := hmem
  obtain rfl := List.mem_singleton.mp hp
  exact absurd hs.2 (by decide)

end LinuxDriver.Mmc
