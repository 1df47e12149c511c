import LinuxDriver.Mmc.Shrink

/-!
# Reliable writes of older cards

A card without the bit `EXT_CSD_WR_REL_PARAM_EN` takes a reliable write of one sector, or of
`rel_sectors` sectors from a multiple of `rel_sectors` on. `mmc_apply_rel_rw` reduces a transfer to
one of these, and the request is done in partial completions. It tests with a mask whether the
request starts at a multiple, so the sizes that are no power of two need a closer look.

## Main definitions

* `relWrites`: the transfers of a write, each of which starts where the one before it ended.
* `LegacyTransfer`: what such a card can take.
* `MaskAligns`: where the mask lets a transfer pass, the transfer is one that the card can take.

## Main results

* `mmcApplyRelRw_eq`: the block count in closed form.
* `mmcApplyRelRw_legacy_iff`: when all transfers of a write are legacy transfers, and the cards for
  which this is so for every write.
-/

namespace LinuxDriver.Mmc

/-- A card with the older kind of reliable writes. `rel_sectors` is a byte of the EXT_CSD. -/
structure Card.LegacyRel (card : Card) : Prop where
  relParamEn : card.relParamEn = false
  relSectors_pos : 1 ≤ card.relSectors
  relSectors_lt : card.relSectors < 2 ^ 8

/-- A write for which `mmc_blk_data_prep` sets `do_rel_wr`. -/
structure FuaWrite (mq : Queue) (req : Request) : Prop where
  reqFua : req.reqFua = true
  write : req.dir = .write
  relWr : mq.blkdata.relWr = true

/-- The transfers of a request, each of which succeeds as a whole, or `none` out of fuel. -/
def relWrites (B : BlockLayer) (mq : Queue) : ℕ → Request → Option (List Chunk)
  | 0, req => if req.sectors = 0 then some [] else none
  | fuel + 1, req =>
    if req.sectors = 0 then some []
    else
      let blocks := (mmcBlkDataPrep mq req (B.mapSg req) false).1.blocks
      (relWrites B mq fuel (req.advance blocks)).map (⟨req.pos, blocks⟩ :: ·)

/-- One sector, or `rel` sectors from a multiple of `rel` on. -/
def LegacyTransfer (rel : ℕ) (c : Chunk) : Prop := c.size = 1 ∨ c.size = rel ∧ rel ∣ c.pos

instance (rel : ℕ) : DecidablePred (LegacyTransfer rel) := fun c =>
  inferInstanceAs (Decidable (c.size = 1 ∨ c.size = rel ∧ rel ∣ c.pos))

/-- The request, when it has come to sector `t`, passes the mask test and has `rel_sectors` blocks
to transfer. -/
def FullAt (mq : Queue) (req : Request) (t : ℕ) : Prop :=
  t &&& (mq.card.relSectors - 1) = 0 ∧
    mq.card.relSectors ≤ transferBlocks mq (req.advance (t - req.pos)) false

/-- Every sector of the request at which a full transfer could start is a multiple of `rel_sectors`,
or comes after the start of a full transfer at the multiple before it. -/
def MaskAligns (mq : Queue) (req : Request) : Prop :=
  ∀ t, req.pos ≤ t → t < req.pos + req.sectors → FullAt mq req t → ¬mq.card.relSectors ∣ t →
    req.pos ≤ t - t % mq.card.relSectors ∧ FullAt mq req (t - t % mq.card.relSectors)

/-! ### One transfer -/

/-- **The block count.** -/
theorem mmcApplyRelRw_eq {card : Card} (hcard : card.LegacyRel) (req : Request) (blocks : ℕ) :
    mmcApplyRelRw card req blocks =
      if req.pos &&& (card.relSectors - 1) = 0 ∧ card.relSectors ≤ blocks then card.relSectors
      else 1 := by
  obtain ⟨hparam, hrel, hbyte⟩ := hcard
  have hmask : wrapSub 64 card.relSectors 1 = card.relSectors - 1 :=
    wrapSub_of_le (hbyte.trans (by norm_num)) hrel
  simp only [mmcApplyRelRw, hparam, hmask, Bool.false_eq_true, if_false]
  by_cases halign : req.pos &&& (card.relSectors - 1) = 0
  · simp only [halign, ne_eq, not_true_eq_false, if_false, true_and]
    split_ifs <;> omega
  · -- a mask that is not zero belongs to a size above one
    have hone : card.relSectors ≠ 1 := by
      rintro heq
      rw [heq] at halign
      exact halign (Nat.and_zero _)
    simp only [halign, ne_eq, not_false_eq_true, if_true, false_and, if_false]
    split_ifs <;> omega

theorem FuaWrite.advance {mq : Queue} {req : Request} (h : FuaWrite mq req) (n : ℕ) :
    FuaWrite mq (req.advance n) :=
  ⟨h.reqFua, h.write, h.relWr⟩

theorem advance_zero (req : Request) : req.advance 0 = req := rfl

theorem FuaWrite.blocks {mq : Queue} (hcard : mq.card.LegacyRel) {req : Request}
    (h : FuaWrite mq req) (hpos : 0 < req.sectors) (sg : List ℕ) :
    (FullAt mq req req.pos ∧
      (mmcBlkDataPrep mq req sg false).1.blocks = mq.card.relSectors ∧
      mq.card.relSectors ≤ req.sectors) ∨
    (¬FullAt mq req req.pos ∧ (mmcBlkDataPrep mq req sg false).1.blocks = 1) := by
  have hle := (transferBlocks_bounds mq false hpos).2
  have hblocks : (mmcBlkDataPrep mq req sg false).1.blocks =
      mmcApplyRelRw mq.card req (transferBlocks mq req false) := by
    simp [mmcBlkDataPrep, h.reqFua, h.write, h.relWr]
  have hfull : FullAt mq req req.pos ↔ req.pos &&& (mq.card.relSectors - 1) = 0 ∧
      mq.card.relSectors ≤ transferBlocks mq req false := by
    rw [FullAt, Nat.sub_self, advance_zero]
  rw [hblocks, mmcApplyRelRw_eq hcard, hfull]
  split_ifs with hif
  · exact .inl ⟨hif, rfl, hif.2.trans hle⟩
  · exact .inr ⟨hif, rfl⟩

/-! ### The condition along a request -/

theorem fullAt_advance {mq : Queue} {req : Request} {n t : ℕ} (ht : req.pos + n ≤ t) :
    FullAt mq (req.advance n) t ↔ FullAt mq req t := by
  have hsub : n + (t - (req.pos + n)) = t - req.pos := by omega
  rw [FullAt, FullAt, Request.advance_pos, Request.advance_advance, hsub]

/-- A sector that is no multiple of `d` and not below a multiple `m` of it comes after `m`. -/
theorem le_sub_mod {d m t : ℕ} (hd : 0 < d) (hm : d ∣ m) (hmt : m ≤ t) : m ≤ t - t % d := by
  obtain ⟨j, rfl⟩ := hm
  have hsub : t - t % d = d * (t / d) := by
    have hdiv := Nat.div_add_mod t d
    omega
  rw [hsub]
  exact Nat.mul_le_mul_left d ((Nat.le_div_iff_mul_le hd).mpr (Nat.mul_comm d j ▸ hmt))

section Step

variable {mq : Queue} {req : Request}

/-- A full transfer at a multiple passes over the sectors after it. -/
theorem maskAligns_of_dvd (hcard : mq.card.LegacyRel) (hfull : FullAt mq req req.pos)
    (hle : mq.card.relSectors ≤ req.sectors) (hdvd : mq.card.relSectors ∣ req.pos) :
    MaskAligns mq req ↔ MaskAligns mq (req.advance mq.card.relSectors) := by
  have hrel := hcard.relSectors_pos
  generalize hd : mq.card.relSectors = d at *
  have hnext : d ∣ req.pos + d := hdvd.add (dvd_refl d)
  unfold MaskAligns
  rw [Request.advance_pos, Request.advance_sectors, hd]
  constructor
  · rintro h t hge hlt ht hndvd
    have hback : req.pos + d ≤ t - t % d := le_sub_mod hrel hnext hge
    obtain ⟨-, hat⟩ := h t (by omega) (by omega) ((fullAt_advance hge).mp ht) hndvd
    exact ⟨hback, (fullAt_advance hback).mpr hat⟩
  · rintro h t hge hlt ht hndvd
    by_cases hin : req.pos + d ≤ t
    · obtain ⟨hback, hat⟩ := h t hin (by omega) ((fullAt_advance hin).mpr ht) hndvd
      exact ⟨by omega, (fullAt_advance hback).mp hat⟩
    · -- the multiple before `t` is the start of the request
      have hmod : t % d = t - req.pos := by
        obtain ⟨j, hj⟩ := hdvd
        have hsplit : t = (t - req.pos) + d * j := by omega
        rw [hsplit, Nat.add_mul_mod_self_left, Nat.mod_eq_of_lt (by omega)]
        omega
      have hstart : t - t % d = req.pos := by omega
      rw [hstart]
      exact ⟨le_rfl, hfull⟩

/-- A transfer of one sector passes over no other one. -/
theorem maskAligns_of_not_full (hpos : 0 < req.sectors) (hfull : ¬FullAt mq req req.pos) :
    MaskAligns mq req ↔ MaskAligns mq (req.advance 1) := by
  unfold MaskAligns
  rw [Request.advance_pos, Request.advance_sectors]
  have hback {t : ℕ} (hge : req.pos ≤ t - t % mq.card.relSectors)
      (hat : FullAt mq req (t - t % mq.card.relSectors)) :
      req.pos + 1 ≤ t - t % mq.card.relSectors := by
    refine Nat.lt_of_le_of_ne hge ?_
    rintro heq
    exact hfull (heq ▸ hat)
  constructor
  · rintro h t hge hlt ht hndvd
    obtain ⟨hge', hat⟩ := h t (by omega) (by omega) ((fullAt_advance hge).mp ht) hndvd
    have hlater := hback hge' hat
    exact ⟨hlater, (fullAt_advance hlater).mpr hat⟩
  · rintro h t hge hlt ht hndvd
    have hne : req.pos ≠ t := by
      rintro heq
      exact hfull (heq ▸ ht)
    have hge1 : req.pos + 1 ≤ t := by omega
    obtain ⟨hge', hat⟩ := h t hge1 (by omega) ((fullAt_advance hge1).mpr ht) hndvd
    exact ⟨by omega, (fullAt_advance hge').mp hat⟩

/-- A full transfer somewhere else is what the condition excludes. -/
theorem not_maskAligns (hpos : 0 < req.sectors) (hfull : FullAt mq req req.pos)
    (hndvd : ¬mq.card.relSectors ∣ req.pos) : ¬MaskAligns mq req := by
  rintro h
  have hback := (h req.pos le_rfl (by omega) hfull hndvd).1
  have hmod : req.pos % mq.card.relSectors ≠ 0 := fun heq => hndvd (Nat.dvd_of_mod_eq_zero heq)
  have hmodle := Nat.mod_le req.pos mq.card.relSectors
  omega

theorem MaskAligns.of_done (hdone : req.sectors = 0) : MaskAligns mq req := by
  rintro t hge hlt
  omega

end Step

/-! ### The whole request -/

/-- The start of the run of a request with sectors left. -/
theorem relWrites_succ (B : BlockLayer) (mq : Queue) {req : Request} (hpos : req.sectors ≠ 0)
    (fuel : ℕ) :
    relWrites B mq (fuel + 1) req =
      (relWrites B mq fuel
        (req.advance (mmcBlkDataPrep mq req (B.mapSg req) false).1.blocks)).map
        (⟨req.pos, (mmcBlkDataPrep mq req (B.mapSg req) false).1.blocks⟩ :: ·) := by
  rw [relWrites, if_neg hpos]

theorem relWrites_done (B : BlockLayer) (mq : Queue) {req : Request} (hdone : req.sectors = 0)
    (fuel : ℕ) : relWrites B mq fuel req = some [] := by
  cases fuel <;> rw [relWrites, if_pos hdone]

/-- **The transfers of a write.** They have the sectors of the request in their order. All of them
are legacy transfers if the mask aligns the request, and only then. -/
theorem relWrites_spec (B : BlockLayer) {mq : Queue} (hcard : mq.card.LegacyRel) {fuel : ℕ}
    {req : Request} (hfua : FuaWrite mq req) (hfuel : req.sectors ≤ fuel) :
    ∃ cs, relWrites B mq fuel req = some cs ∧
      cs.flatMap (fun c => List.range' c.pos c.size) = List.range' req.pos req.sectors ∧
      ((∀ c ∈ cs, LegacyTransfer mq.card.relSectors c) ↔ MaskAligns mq req) := by
  induction fuel generalizing req with
  | zero =>
    have hdone : req.sectors = 0 := by omega
    exact ⟨[], relWrites_done B mq hdone 0, by rw [hdone]; rfl,
      iff_of_true (List.forall_mem_nil _) (MaskAligns.of_done hdone)⟩
  | succ fuel ih =>
    by_cases hdone : req.sectors = 0
    · exact ⟨[], relWrites_done B mq hdone _, by rw [hdone]; rfl,
        iff_of_true (List.forall_mem_nil _) (MaskAligns.of_done hdone)⟩
    · have hpos : 0 < req.sectors := Nat.pos_of_ne_zero hdone
      have hrel := hcard.relSectors_pos
      rw [relWrites_succ B mq hdone]
      rcases hfua.blocks hcard hpos (B.mapSg req) with ⟨hfull, hblocks, hle⟩ | ⟨hfull, hblocks⟩
      · obtain ⟨cs, hrun, hunits, hlegacy⟩ :=
          ih (hfua.advance mq.card.relSectors) (by rw [Request.advance_sectors]; omega)
        rw [hblocks, hrun]
        refine ⟨_, rfl, ?_, ?_⟩
        · rw [List.flatMap_cons, hunits, Request.advance_pos, Request.advance_sectors,
            List.range'_append_1, Nat.add_sub_cancel' hle]
        · rw [List.forall_mem_cons]
          by_cases hdvd : mq.card.relSectors ∣ req.pos
          · rw [maskAligns_of_dvd hcard hfull hle hdvd, hlegacy]
            exact and_iff_right (.inr ⟨rfl, hdvd⟩)
          · refine iff_of_false ?_ (not_maskAligns hpos hfull hdvd)
            rintro ⟨hone | ⟨-, hdvd'⟩, -⟩
            · have hone' : mq.card.relSectors = 1 := hone
              exact hdvd (hone' ▸ Nat.one_dvd req.pos)
            · exact hdvd hdvd'
      · obtain ⟨cs, hrun, hunits, hlegacy⟩ :=
          ih (hfua.advance 1) (by rw [Request.advance_sectors]; omega)
        rw [hblocks, hrun]
        refine ⟨_, rfl, ?_, ?_⟩
        · rw [List.flatMap_cons, hunits, Request.advance_pos, Request.advance_sectors,
            List.range'_append_1, Nat.add_sub_cancel' hpos]
        · rw [List.forall_mem_cons, maskAligns_of_not_full hpos hfull, hlegacy]
          exact and_iff_right (.inl rfl)

/-! ### The cards -/

/-- With a power of two, the mask test is a test for multiples. -/
theorem maskAligns_of_two_pow {mq : Queue} {k : ℕ} (hk : mq.card.relSectors = 2 ^ k)
    (req : Request) : MaskAligns mq req := by
  rintro t - - ⟨hmask, -⟩ hndvd
  rw [hk, Nat.and_two_pow_sub_one_eq_mod] at hmask
  rw [hk] at hndvd
  exact absurd (Nat.dvd_of_mod_eq_zero hmask) hndvd

theorem mask_256 {n : ℕ} (hn : n < 2 ^ 8) : 2 ^ 8 &&& n = 0 := by
  refine Nat.eq_of_testBit_eq fun i => ?_
  rw [Nat.testBit_and, Nat.zero_testBit]
  by_cases hi : i = 8
  · rw [hi, Nat.testBit_lt_two_pow hn, Bool.and_false]
  · rw [Nat.testBit_two_pow_of_ne (Ne.symm hi), Bool.false_and]

/-- Sector 256 passes every mask of a byte, so it has to be a multiple. -/
theorem two_pow_of_maskAligns {mq : Queue} (hcard : mq.card.LegacyRel) {req : Request}
    (hpos : req.pos = 2 ^ 8) (hsectors : 0 < req.sectors)
    (hblocks : mq.card.relSectors ≤ transferBlocks mq req false) (h : MaskAligns mq req) :
    ∃ k, mq.card.relSectors = 2 ^ k := by
  by_cases hdvd : mq.card.relSectors ∣ 2 ^ 8
  · obtain ⟨k, -, hk⟩ := (Nat.dvd_prime_pow Nat.prime_two).mp hdvd
    exact ⟨k, hk⟩
  · have hbyte := hcard.relSectors_lt
    have hfull : FullAt mq req req.pos := by
      rw [FullAt, Nat.sub_self, advance_zero, hpos]
      exact ⟨mask_256 (by omega), hblocks⟩
    exact absurd h (not_maskAligns hsectors hfull (hpos ▸ hdvd))

/-- A queue of the card, of a host that takes all blocks at once. -/
def relQueue (card : Card) : Queue :=
  ⟨⟨false, 2 ^ 16, none, by norm_num⟩, card, ⟨true, true, 2 ^ 30⟩⟩

/-- A FUA write of a few sectors. -/
def fuaRequest (pos sectors : ℕ) (h : sectors < 2 ^ 8) : Request :=
  ⟨pos, sectors, .write, true, false, h.trans (by norm_num)⟩

theorem fuaWrite_fuaRequest (card : Card) (pos : ℕ) {sectors : ℕ} (h : sectors < 2 ^ 8) :
    FuaWrite (relQueue card) (fuaRequest pos sectors h) :=
  ⟨rfl, rfl, rfl⟩

theorem transferBlocks_fuaRequest (card : Card) (pos : ℕ) {sectors : ℕ} (h : sectors < 2 ^ 8) :
    transferBlocks (relQueue card) (fuaRequest pos sectors h) false = sectors := by
  have hhost : ¬65536 < sectors := by omega
  simp [transferBlocks, relQueue, fuaRequest, hhost]

/-- **Legacy reliable writes.** The transfers of a FUA write have its sectors once and in their
order. They are all legacy transfers if and only if the mask aligns the write, and this is so for
every write of the card if and only if its `rel_sectors` is a power of two. -/
theorem mmcApplyRelRw_legacy_iff (B : BlockLayer) {card : Card} (hcard : card.LegacyRel) :
    (∀ mq req fuel, mq.card = card → FuaWrite mq req → req.sectors ≤ fuel →
      ∃ cs, relWrites B mq fuel req = some cs ∧
        cs.flatMap (fun c => List.range' c.pos c.size) = List.range' req.pos req.sectors ∧
        ((∀ c ∈ cs, LegacyTransfer card.relSectors c) ↔ MaskAligns mq req)) ∧
    ((∀ mq req, mq.card = card → FuaWrite mq req → MaskAligns mq req) ↔
      ∃ k, card.relSectors = 2 ^ k) := by
  constructor
  · rintro mq req fuel rfl hfua hfuel
    exact relWrites_spec B hcard hfua hfuel
  · constructor
    · rintro h
      have hbyte := hcard.relSectors_lt
      have hfua := fuaWrite_fuaRequest card (2 ^ 8) hbyte
      have hblocks := transferBlocks_fuaRequest card (2 ^ 8) hbyte
      exact @two_pow_of_maskAligns (relQueue card) hcard (fuaRequest (2 ^ 8) card.relSectors hbyte)
        rfl hcard.relSectors_pos hblocks.ge (h _ _ rfl hfua)
    · rintro ⟨k, hk⟩ mq req rfl -
      exact maskAligns_of_two_pow hk req

/-- Twelve sectors from sector 5 on, of a card that takes 8 at a time. -/
theorem mmcApplyRelRw_legacy_iff_sample :
    ∃ cs, relWrites flatBlockLayer (relQueue ⟨true, false, 8, 0, false⟩) 12
        (fuaRequest 5 12 (by decide)) = some cs ∧ ∀ c ∈ cs, LegacyTransfer 8 c := by
  have hcard : Card.LegacyRel ⟨true, false, 8, 0, false⟩ := ⟨rfl, by decide, by decide⟩
  obtain ⟨hruns, hcards⟩ := mmcApplyRelRw_legacy_iff flatBlockLayer hcard
  obtain ⟨cs, hrun, -, hlegacy⟩ := hruns (relQueue ⟨true, false, 8, 0, false⟩)
    (fuaRequest 5 12 (by decide)) 12 rfl ⟨rfl, rfl, rfl⟩ le_rfl
  exact ⟨cs, hrun, hlegacy.mpr (hcards.mpr ⟨3, rfl⟩ _ _ rfl ⟨rfl, rfl, rfl⟩)⟩

/-- A card that takes three sectors at a time is written three sectors from sector 4 on. -/
theorem relWrites_unaligned :
    ¬∀ (card : Card) (mq : Queue) (req : Request) (fuel : ℕ), card.LegacyRel → mq.card = card →
      FuaWrite mq req → req.sectors ≤ fuel →
      ∃ cs, relWrites flatBlockLayer mq fuel req = some cs ∧
        cs.flatMap (fun c => List.range' c.pos c.size) = List.range' req.pos req.sectors ∧
        ∀ c ∈ cs, LegacyTransfer card.relSectors c := by
  rintro h
  have hcard : Card.LegacyRel ⟨true, false, 3, 0, false⟩ := ⟨rfl, by decide, by decide⟩
  obtain ⟨cs, hrun, -, hlegacy⟩ := h _ (relQueue ⟨true, false, 3, 0, false⟩)
    (fuaRequest 4 3 (by decide)) 3 hcard rfl ⟨rfl, rfl, rfl⟩ le_rfl
  have hone : relWrites flatBlockLayer (relQueue ⟨true, false, 3, 0, false⟩) 3
      (fuaRequest 4 3 (by decide)) = some [⟨4, 3⟩] := by decide
  obtain rfl : [⟨4, 3⟩] = cs := Option.some.inj (hone.symm.trans hrun)
  exact absurd (hlegacy ⟨4, 3⟩ (List.mem_singleton_self _)) (by decide)

end LinuxDriver.Mmc
