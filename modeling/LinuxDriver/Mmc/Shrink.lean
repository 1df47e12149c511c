import LinuxDriver.Mmc.Recovery

/-!
# Shrinking a request to a transfer

`mmc_blk_data_prep` may move fewer sectors than the request has left, and then it cuts the scatter
list of the request down to them. Reliable writes are the last to reduce the number of blocks. They
are in use only if `mmc_blk_alloc_req` has found a way to do them, which is what keeps them from
reducing it to zero.

## Main definitions

* `mmcBlkAllocFlags`: the flags that `mmc_blk_alloc_req` sets.
* `ShortenedPrefix`: a list that was cut.

## Main results

* `adjustSg_shortens`: the loop cuts the list where the bytes end.
* `mmcBlkDataPrep_in_step`: the blocks and the scatter list of a transfer fit together.
-/

namespace LinuxDriver.Mmc

/-! ### Flags -/

/-- What `mmc_blk_alloc_req` asks before it sets the flags: whether the host and the card can do
CMD23, and whether this is an MMC card. -/
structure AllocQuery where
  hostCmd23 : Bool
  cardCmd23 : Bool
  mmc : Bool

/-- The flags `MMC_BLK_CMD23` and `MMC_BLK_REL_WR` that `mmc_blk_alloc_req` sets. -/
def mmcBlkAllocFlags (query : AllocQuery) (card : Card) : Bool × Bool :=
  let cmd23 := query.hostCmd23 && query.cardCmd23
  (cmd23, query.mmc && cmd23 && (card.relParamEn || card.relSectors ≠ 0))

/-- The flags of the queue are those that `mmc_blk_alloc_req` has set. -/
def Queue.Allocated (mq : Queue) : Prop :=
  ∃ query, (mq.blkdata.cmd23, mq.blkdata.relWr) = mmcBlkAllocFlags query mq.card

theorem Queue.Allocated.relWr {mq : Queue} (h : mq.Allocated) (hrel : mq.blkdata.relWr = true) :
    mq.card.relParamEn = true ∨ mq.card.relSectors ≠ 0 := by
  obtain ⟨query, hflags⟩ := h
  have hset : mq.blkdata.relWr = (mmcBlkAllocFlags query mq.card).2 := congrArg Prod.snd hflags
  rw [hset, mmcBlkAllocFlags] at hrel
  simpa using (Bool.and_eq_true_iff.mp hrel).2

/-! ### The blocks -/

/-- A reliable write has a block if `rel_param` or `rel_sectors` says how to do one. -/
theorem one_le_mmcApplyRelRw {card : Card} (req : Request) {blocks : ℕ}
    (hcard : card.relParamEn = true ∨ card.relSectors ≠ 0) (hpos : 1 ≤ blocks) :
    1 ≤ mmcApplyRelRw card req blocks := by
  unfold mmcApplyRelRw
  by_cases hparam : card.relParamEn = true
  · rw [if_pos hparam]
    exact hpos
  · have hrel : card.relSectors ≠ 0 := hcard.resolve_left hparam
    rw [if_neg hparam]
    dsimp only
    split_ifs <;> omega

/-- **The number of blocks.** It is between one and what the request has left. -/
theorem mmcBlkDataPrep_blocks {mq : Queue} (hmq : mq.Allocated) {req : Request} (sg : List ℕ)
    (disableMulti : Bool) (hpos : 1 ≤ req.sectors) :
    1 ≤ (mmcBlkDataPrep mq req sg disableMulti).1.blocks ∧
      (mmcBlkDataPrep mq req sg disableMulti).1.blocks ≤ req.sectors := by
  obtain ⟨hone, hle⟩ := transferBlocks_bounds mq disableMulti hpos
  simp only [mmcBlkDataPrep]
  split_ifs with hrel
  · have hflag : mq.blkdata.relWr = true := (Bool.and_eq_true_iff.mp hrel).2
    exact ⟨one_le_mmcApplyRelRw req (hmq.relWr hflag) hone,
      (mmcApplyRelRw_le mq.card req hone).trans hle⟩
  · exact ⟨hone, hle⟩

/-! ### The scatter list -/

/-- The first entries of a list, of which the last one may be shortened. -/
def ShortenedPrefix (kept sg : List ℕ) : Prop :=
  kept = sg ∨ ∃ pre len rest cut, sg = pre ++ len :: rest ∧ kept = pre ++ [cut] ∧ cut ≤ len

theorem ShortenedPrefix.cons {kept sg : List ℕ} (len : ℕ) (h : ShortenedPrefix kept sg) :
    ShortenedPrefix (len :: kept) (len :: sg) := by
  rcases h with rfl | ⟨pre, len', rest, cut, rfl, rfl, hcut⟩
  · exact .inl rfl
  · exact .inr ⟨len :: pre, len', rest, cut, rfl, rfl, hcut⟩

/-- What is left of the bytes fits in an `int`, so nothing wraps. -/
theorem bmod_sub_len {n : ℤ} {len : ℕ} (hpos : 0 < n) (hlt : n < 2 ^ 31) (hlen : len < 2 ^ 31) :
    (n - len).bmod (2 ^ 32) = n - len := by
  refine Int.bmod_eq_of_le ?_ ?_
  · norm_num
    omega
  · norm_num
    omega

/-- **The cut.** The loop keeps as many bytes as it is told to, and shortens nothing but the last
entry that it keeps. -/
theorem adjustSg_shortens {n : ℤ} {sg : List ℕ} (hpos : 0 < n) (hle : n ≤ (sg.sum : ℕ))
    (hlt : sg.sum < 2 ^ 31) (hall : ∀ len ∈ sg, 0 < len) :
    ((adjustSg n sg).sum : ℤ) = n ∧ (∀ len ∈ adjustSg n sg, 0 < len) ∧
      ShortenedPrefix (adjustSg n sg) sg := by
  induction sg generalizing n with
  | nil =>
    rw [List.sum_nil] at hle
    omega
  | cons len sg ih =>
    obtain ⟨hlen, hrest⟩ := List.forall_mem_cons.mp hall
    rw [List.sum_cons] at hle hlt
    rw [adjustSg, bmod_sub_len hpos (by omega) (by omega)]
    split_ifs with hlast
    · -- the entry in which the bytes end
      have hcut : ((len : ℤ) + (n - len)) % 2 ^ 32 = n := by
        rw [add_sub_cancel]
        exact Int.emod_eq_of_lt hpos.le (by omega)
      rw [hcut]
      refine ⟨?_, ?_, .inr ⟨[], len, sg, n.toNat, rfl, rfl, by omega⟩⟩
      · rw [List.sum_singleton]
        exact Int.toNat_of_nonneg hpos.le
      · rw [List.forall_mem_singleton]
        omega
    · obtain ⟨hsum, hmem, hprefix⟩ := ih (n := n - len) (by omega) (by omega) (by omega) hrest
      refine ⟨?_, List.forall_mem_cons.mpr ⟨hlen, hmem⟩, hprefix.cons len⟩
      rw [List.sum_cons]
      omega

/-- **In step.** The blocks of a transfer are at least one and no more than the request has left,
and its scatter list is that of the request up to the end of the blocks. -/
theorem mmcBlkDataPrep_in_step {mq : Queue} (hmq : mq.Allocated) {req : Request} {sg : List ℕ}
    (disableMulti : Bool) (hpos : 1 ≤ req.sectors) (hlt : req.sectors < 2 ^ 22)
    (hall : ∀ len ∈ sg, 0 < len) (hsum : sg.sum = 512 * req.sectors) :
    let data := (mmcBlkDataPrep mq req sg disableMulti).1
    (1 ≤ data.blocks ∧ data.blocks ≤ req.sectors) ∧ (∀ len ∈ data.sg, 0 < len) ∧
      data.sg.sum = data.blocks * 512 ∧ ShortenedPrefix data.sg sg := by
  intro data
  have hblocks : 1 ≤ data.blocks ∧ data.blocks ≤ req.sectors :=
    mmcBlkDataPrep_blocks hmq sg disableMulti hpos
  refine ⟨hblocks, ?_⟩
  have hsg : data.sg =
      if data.blocks ≠ req.sectors then adjustSg (toCInt (data.blocks * 512)) sg else sg := rfl
  rw [hsg]
  split_ifs with hcut
  · have hint : toCInt (data.blocks * 512) = ((data.blocks * 512 : ℕ) : ℤ) :=
      toCInt_of_lt (by omega)
    rw [hint]
    obtain ⟨hsum', hmem, hprefix⟩ :=
      adjustSg_shortens (n := ((data.blocks * 512 : ℕ) : ℤ)) (by omega) (by omega) (by omega) hall
    exact ⟨hmem, Int.ofNat.inj hsum', hprefix⟩
  · refine ⟨hall, ?_, .inl rfl⟩
    rw [hsum, not_not.mp hcut, Nat.mul_comm]

/-- Sixteen sectors in three entries, of which a host takes eleven: the second entry is shortened
and the third one is not kept. -/
theorem mmcBlkDataPrep_in_step_sample :
    (mmcBlkDataPrep ⟨⟨false, 11, none, by decide⟩, ⟨true, false, 0, 0, true⟩, ⟨false, false, 1000⟩⟩
      ⟨0, 16, .write, true, false, by decide⟩ [512, 6144, 1536] false).1.sg.sum = 11 * 512 := by
  have hmq : Queue.Allocated
      ⟨⟨false, 11, none, by decide⟩, ⟨true, false, 0, 0, true⟩, ⟨false, false, 1000⟩⟩ :=
    ⟨⟨false, false, false⟩, rfl⟩
  exact (@mmcBlkDataPrep_in_step _ hmq ⟨0, 16, .write, true, false, by decide⟩ [512, 6144, 1536]
    false (by decide) (by decide) (by decide) (by decide)).2.2.1

end LinuxDriver.Mmc
