import LinuxDriver.Mmc.EraseGroups

/-!
# The largest discard

`mmc_do_calc_max_discard` looks for the number of erase groups that can be erased within the busy
timeout of the host. It probes in doubling steps, and the timeout of a probe is a product in 32
bits. That a probe is dropped when its timeout is below the last one is enough to notice every
product that wraps: a step never adds more groups than were accepted before it.

## Main definitions

* `mmcMmcEraseTimeout`, `mmcSdEraseTimeout`, `mmcEraseTimeout`.
* `probe`, `search`: the two loops.
* `mmcDoCalcMaxDiscard`.
* `exactTimeout`: the timeout without a wrap.

## Main results

* `no_wrap`: an accepted probe has not wrapped.
* `search_spec`: the loops end, with an accepted number of groups.
* `mmcDoCalcMaxDiscard_budget`: every range within the result stays within the timeout.
-/

namespace LinuxDriver.Mmc

/-! ### Timeouts -/

/-- What the timeouts of an erase depend on: whether the host is an SPI host and `ios.clock`; of
the EXT_CSD the revision, `trim_timeout`, `hc_erase_timeout`, the lowest bit of `erase_group_def`
and the multipliers of the secure operations; of the CSD `r2w_factor`, `taac_clks` and `taac_ns`;
and of the SSR `erase_timeout` and `erase_offset`. -/
structure EraseTimes where
  spi : Bool
  clock : ℕ
  rev : ℕ
  trimTimeout : ℕ
  hcEraseTimeout : ℕ
  eraseGroupDef : Bool
  secEraseMult : ℕ
  secTrimMult : ℕ
  r2wFactor : ℕ
  taacClks : ℕ
  taacNs : ℕ
  ssrEraseTimeout : ℕ
  ssrEraseOffset : ℕ
  trimTimeout_lt : trimTimeout < 2 ^ 32
  hcEraseTimeout_lt : hcEraseTimeout < 2 ^ 32

/-- The timeout of a CSD erase group, from the write timeout. -/
def csdEraseTimeout (times : EraseTimes) : ℕ :=
  let mult := 10 <<< times.r2wFactor % 2 ^ 32
  let timeoutClks := times.taacClks * mult % 2 ^ 32
  let timeoutUs :=
    if times.taacNs < 1000000 then times.taacNs * mult % 2 ^ 32 / 1000
    else times.taacNs / 1000 * mult % 2 ^ 32
  let timeoutClks := timeoutClks <<< 1 % 2 ^ 32
  let timeoutUs := wrapAdd 32 timeoutUs (timeoutClks * 1000 % 2 ^ 32 / (times.clock / 1000))
  let eraseTimeout := timeoutUs / 1000
  if eraseTimeout = 0 then 1 else eraseTimeout

/-- The `erase_timeout` of `mmc_mmc_erase_timeout` before it is multiplied by `qty`. -/
def mmcGroupTimeout (times : EraseTimes) (arg : ℕ) : ℕ :=
  let eraseTimeout :=
    if arg = mmcDiscardArg ∨ (arg = mmcTrimArg ∧ 6 ≤ times.rev) then times.trimTimeout
    else if times.eraseGroupDef then
      if arg = mmcTrimArg then times.trimTimeout else times.hcEraseTimeout
    else csdEraseTimeout times
  if arg &&& mmcSecureArgs ≠ 0 then
    if arg = mmcSecureEraseArg then eraseTimeout * times.secEraseMult % 2 ^ 32
    else eraseTimeout * times.secTrimMult % 2 ^ 32
  else eraseTimeout

/-- At least one second with an SPI host. -/
def spiFloor (spi : Bool) (timeout : ℕ) : ℕ := if spi ∧ timeout < 1000 then 1000 else timeout

/-- `mmc_mmc_erase_timeout` -/
def mmcMmcEraseTimeout (times : EraseTimes) (arg qty : ℕ) : ℕ :=
  spiFloor times.spi (mmcGroupTimeout times arg * qty % 2 ^ 32)

/-- `mmc_sd_erase_timeout` -/
def mmcSdEraseTimeout (times : EraseTimes) (qty : ℕ) : ℕ :=
  let eraseTimeout :=
    if times.ssrEraseTimeout ≠ 0 then
      wrapAdd 32 (times.ssrEraseTimeout * qty % 2 ^ 32) times.ssrEraseOffset
    else 250 * qty % 2 ^ 32
  if eraseTimeout < 1000 then 1000 else eraseTimeout

/-- `mmc_erase_timeout` -/
def mmcEraseTimeout (g : EraseGeometry) (times : EraseTimes) (arg qty : ℕ) : ℕ :=
  if g.sd then mmcSdEraseTimeout times qty else mmcMmcEraseTimeout times arg qty

/-! ### The search -/

section Search

variable (timeout : ℕ → ℕ) (maxQty minQty maxBusyTimeout : ℕ)

/-- The inner loop from a value of `x` on, with the `y` and `last_timeout` of the last accepted
probe: their values at its end, or `none` out of fuel. -/
def probe (qty : ℕ) : ℕ → ℕ → ℕ → ℕ → Option (ℕ × ℕ)
  | 0, _, _, _ => none
  | fuel + 1, x, y, lastTimeout =>
    if x ≠ 0 ∧ x ≤ maxQty ∧ qty ≤ maxQty - x then
      let next := wrapAdd 32 qty x
      if minQty < next ∧ maxBusyTimeout < timeout next then some (y, lastTimeout)
      else if timeout next < lastTimeout then some (y, lastTimeout)
      else probe qty fuel (x <<< 1 % 2 ^ 32) x (timeout next)
    else some (y, lastTimeout)

/-- The outer loop. The inner one ends after 32 doublings, when `x` has become zero. -/
def search : ℕ → ℕ → ℕ → Option ℕ
  | 0, _, _ => none
  | fuel + 1, qty, lastTimeout =>
    match probe timeout maxQty minQty maxBusyTimeout qty 33 1 0 lastTimeout with
    | none => none
    | some (y, lastTimeout) =>
      let qty := wrapAdd 32 qty y
      if y ≠ 0 then search fuel qty lastTimeout else some qty

end Search

/-- A card with what `mmc_init_erase` has set, the `max_busy_timeout` of its host, and the flag
`eg_boundary`. -/
structure DiscardCard where
  geometry : EraseGeometry
  params : EraseParams
  times : EraseTimes
  maxBusyTimeout : ℕ
  egBoundary : Bool

/-- `MMC_ERASE_TIMEOUT_MS` -/
def mmcEraseTimeoutMs : ℕ := 60 * 1000

/-- The `max_busy_timeout` of `mmc_do_calc_max_discard`. -/
def DiscardCard.busyLimit (card : DiscardCard) : ℕ :=
  if card.maxBusyTimeout ≠ 0 then card.maxBusyTimeout else mmcEraseTimeoutMs

/-- `max_qty` and `min_qty`. -/
def discardBounds (card : DiscardCard) : ℕ × ℕ :=
  if card.params.eraseShift ≠ 0 then
    ((2 ^ 32 - 1) >>> card.params.eraseShift, card.params.prefErase >>> card.params.eraseShift)
  else if card.geometry.sd then (2 ^ 32 - 1, card.params.prefErase)
  else ((2 ^ 32 - 1) / card.geometry.eraseSize, card.params.prefErase / card.geometry.eraseSize)

/-- The `qty` that the loops find. -/
def discardQty (fuel : ℕ) (card : DiscardCard) (arg : ℕ) : Option ℕ :=
  search (mmcEraseTimeout card.geometry card.times arg) (discardBounds card).1
    (discardBounds card).2 card.busyLimit fuel 0 0

/-- The conversion of `qty` to sectors. -/
def discardSectors (card : DiscardCard) (qty : ℕ) : ℕ :=
  if card.params.eraseShift ≠ 0 then qty <<< card.params.eraseShift % 2 ^ 32
  else if card.geometry.sd then wrapAdd 32 qty 1
  else qty * card.geometry.eraseSize % 2 ^ 32

/-- `mmc_do_calc_max_discard`: its result and the flag `eg_boundary` after it. -/
def mmcDoCalcMaxDiscard (fuel : ℕ) (card : DiscardCard) (arg : ℕ) : Option (ℕ × Bool) :=
  match discardQty fuel card arg with
  | none => none
  | some qty =>
    if qty = 0 then some (0, card.egBoundary)
    else if qty = 1 then some (discardSectors card qty, true)
    else some (discardSectors card (qty - 1), card.egBoundary)

/-! ### An accepted probe -/

/-- The timeout for `q` groups of which each takes `t`, without a wrap, is within the limit, or the
groups are no more than `minQty`. -/
def Fits (spi : Bool) (t minQty limit q : ℕ) : Prop := spiFloor spi (t * q) ≤ limit ∨ q ≤ minQty

theorem le_spiFloor (spi : Bool) (n : ℕ) : n ≤ spiFloor spi n := by
  rw [spiFloor]
  split_ifs <;> omega

theorem spiFloor_mono (spi : Bool) {m n : ℕ} (h : m ≤ n) : spiFloor spi m ≤ spiFloor spi n := by
  unfold spiFloor
  by_cases hspi : spi = true
  · simp only [hspi, true_and]
    split_ifs <;> omega
  · simpa [hspi] using h

/-- Fewer groups fit too. -/
theorem Fits.mono {spi : Bool} {t minQty limit q q' : ℕ} (h : Fits spi t minQty limit q)
    (hle : q' ≤ q) : Fits spi t minQty limit q' :=
  h.imp (fun h => (spiFloor_mono spi (Nat.mul_le_mul_left t hle)).trans h) hle.trans

/-- **No wrap.** A step of `d` groups, no more than were accepted so far, has not wrapped if its
timeout is not below the last one. -/
theorem no_wrap {spi : Bool} {t q d last : ℕ} (ht : t < 2 ^ 32) (hq : t * q < 2 ^ 32)
    (hd : d ≤ q ∨ d = 1) (hlast : t * q ≤ last)
    (hle : last ≤ spiFloor spi (t * (q + d) % 2 ^ 32)) : t * (q + d) < 2 ^ 32 := by
  have hsum : t * (q + d) = t * q + t * d := Nat.mul_add t q d
  have hstep : t * d ≤ t * q ∨ t * d = t := by
    rcases hd with hd | rfl
    · exact .inl (Nat.mul_le_mul_left t hd)
    · exact .inr (Nat.mul_one t)
  have hone : q = 0 ∨ t ≤ t * q := (Nat.eq_zero_or_pos q).imp_right (Nat.le_mul_of_pos_right t)
  have hzero : q = 0 → t * q = 0 := by
    rintro rfl
    exact Nat.mul_zero t
  rw [spiFloor] at hle
  generalize t * (q + d) = total at *
  generalize t * q = done at *
  generalize t * d = step at *
  by_contra hwrap
  -- the wrapped product is below the last one, so only the floor can have raised it
  split_ifs at hle <;> omega

/-! ### The loops -/

section Loops

variable {spi : Bool} {t maxQty minQty limit : ℕ}

/-- What holds of the groups accepted so far and of `last_timeout`. -/
structure Accepted (spi : Bool) (t minQty limit q last : ℕ) : Prop where
  lt : t * q < 2 ^ 32
  fits : Fits spi t minQty limit q
  last : t * q ≤ last

/-- The timeout that a probe asks for. -/
def probeTimeout (spi : Bool) (t q : ℕ) : ℕ := spiFloor spi (t * q % 2 ^ 32)

/-- The step lemma: a probe that is not dropped is accepted. -/
theorem Accepted.step {q d last : ℕ} (ht : t < 2 ^ 32) (h : Accepted spi t minQty limit q last)
    (hd : d ≤ q ∨ d = 1) (hle : last ≤ probeTimeout spi t (q + d))
    (hfits : ¬(minQty < q + d ∧ limit < probeTimeout spi t (q + d))) :
    Accepted spi t minQty limit (q + d) (probeTimeout spi t (q + d)) := by
  have hlt : t * (q + d) < 2 ^ 32 := no_wrap ht h.lt hd h.last hle
  have hexact : probeTimeout spi t (q + d) = spiFloor spi (t * (q + d)) := by
    rw [probeTimeout, Nat.mod_eq_of_lt hlt]
  rw [hexact] at hfits ⊢
  refine ⟨hlt, ?_, le_spiFloor spi _⟩
  rw [Fits]
  omega

/-- The inner loop after `i` doublings, with `y` groups accepted in it. -/
structure Probing (i x y : ℕ) : Prop where
  le : i ≤ 32
  x_eq : x = 2 ^ i % 2 ^ 32
  y_eq : y = if i = 0 then 0 else 2 ^ (i - 1)

theorem Probing.start : Probing 0 1 0 := ⟨Nat.zero_le 32, rfl, rfl⟩

/-- The doubling of `x`, which is accepted as `y`. -/
theorem Probing.next {i x y : ℕ} (h : Probing i x y) (hx : x ≠ 0) :
    Probing (i + 1) (x <<< 1 % 2 ^ 32) x ∧ ∃ d, (d ≤ y ∨ d = 1) ∧ x = y + d := by
  obtain ⟨hi, hxi, hyi⟩ := h
  have hlt : i < 32 := by
    refine Nat.lt_of_le_of_ne hi ?_
    rintro rfl
    exact hx (hxi.trans (Nat.mod_self _))
  have hpow : x = 2 ^ i :=
    hxi.trans (Nat.mod_eq_of_lt (Nat.pow_lt_pow_right (by norm_num) hlt))
  refine ⟨⟨hlt, ?_, ?_⟩, ?_⟩
  · rw [hpow, Nat.shiftLeft_eq, pow_one, ← pow_succ]
  · rw [if_neg (Nat.succ_ne_zero i), Nat.add_sub_cancel, hpow]
  · rcases Nat.eq_zero_or_pos i with rfl | hpos
    · exact ⟨1, .inr rfl, by rw [hpow, hyi]; rfl⟩
    · rw [if_neg hpos.ne'] at hyi
      have hdouble : 2 ^ i = 2 ^ (i - 1) + 2 ^ (i - 1) := by
        rw [← Nat.two_mul, ← Nat.pow_succ', Nat.succ_eq_add_one, Nat.sub_add_cancel hpos]
      exact ⟨y, .inl le_rfl, by rw [hpow, hyi, hdouble]⟩

/-- **The inner loop.** It ends, and what it adds is accepted. -/
theorem probe_spec (ht : t < 2 ^ 32) (hmax : maxQty < 2 ^ 32) {qty : ℕ} (fuel : ℕ) {i x y last : ℕ}
    (hfuel : i + fuel = 33) (hi : Probing i x y) (hle : qty + y ≤ maxQty)
    (hacc : Accepted spi t minQty limit (qty + y) last) :
    ∃ y' last', probe (probeTimeout spi t) maxQty minQty limit qty fuel x y last =
        some (y', last') ∧ qty + y' ≤ maxQty ∧
        Accepted spi t minQty limit (qty + y') last' := by
  induction fuel generalizing i x y last with
  | zero =>
    have hbound := hi.le
    omega
  | succ fuel ih =>
    rw [probe]
    split_ifs with hcond
    · obtain ⟨hx, hxle, hqty⟩ := hcond
      have hnext : wrapAdd 32 qty x = qty + x := wrapAdd_of_lt (by omega)
      obtain ⟨hprobing, d, hd, hxy⟩ := hi.next hx
      have hsum : qty + x = qty + y + d := by rw [hxy, Nat.add_assoc]
      simp only [hnext]
      split_ifs with hbusy hwrap
      · exact ⟨y, last, rfl, hle, hacc⟩
      · exact ⟨y, last, rfl, hle, hacc⟩
      · refine ih (by omega) hprobing (by omega) ?_
        rw [hsum] at hbusy hwrap ⊢
        exact hacc.step ht (by omega) (not_lt.mp hwrap) hbusy
    · exact ⟨y, last, rfl, hle, hacc⟩

/-- **The outer loop.** It ends, with groups that are accepted. -/
theorem search_spec (ht : t < 2 ^ 32) (hmax : maxQty < 2 ^ 32) {fuel qty last : ℕ}
    (hfuel : maxQty < fuel + qty) (hle : qty ≤ maxQty)
    (hacc : Accepted spi t minQty limit qty last) :
    ∃ qty', search (probeTimeout spi t) maxQty minQty limit fuel qty last = some qty' ∧
      qty' ≤ maxQty ∧ Fits spi t minQty limit qty' := by
  induction fuel generalizing qty last with
  | zero => omega
  | succ fuel ih =>
    obtain ⟨y, last', hprobe, hle', hacc'⟩ :=
      probe_spec ht hmax 33 (zero_add 33) Probing.start hle hacc
    have hnext : wrapAdd 32 qty y = qty + y := wrapAdd_of_lt (by omega)
    rw [search, hprobe]
    simp only [hnext]
    split_ifs with hy
    · exact ih (by omega) hle' hacc'
    · exact ⟨qty + y, rfl, hle', hacc'.fits⟩

/-- More fuel changes nothing. -/
theorem search_of_le {timeout : ℕ → ℕ} {fuel fuel' qty last r : ℕ} (hle : fuel ≤ fuel')
    (h : search timeout maxQty minQty limit fuel qty last = some r) :
    search timeout maxQty minQty limit fuel' qty last = some r := by
  induction fuel generalizing fuel' qty last with
  | zero => cases h
  | succ fuel ih =>
    obtain ⟨fuel', rfl⟩ := Nat.exists_eq_add_of_lt (Nat.lt_of_succ_le hle)
    rw [search] at h ⊢
    cases hprobe : probe timeout maxQty minQty limit qty 33 1 0 last with
    | none =>
      rw [hprobe] at h
      cases h
    | some out =>
      rw [hprobe] at h
      dsimp only at h ⊢
      split_ifs at h ⊢ with hy
      · exact ih (by omega) h
      · exact h

end Loops

/-! ### The budget -/

/-- The exact timeout of an MMC card with `erase_group_def` for `q` erase groups. -/
def exactTimeout (times : EraseTimes) (arg q : ℕ) : ℕ :=
  spiFloor times.spi ((if arg = mmcTrimArg then times.trimTimeout else times.hcEraseTimeout) * q)

/-- The exact timeout for `q` erase groups is within the limit, or they are no more than
`pref_erase`. -/
def InBudget (card : DiscardCard) (arg q : ℕ) : Prop :=
  exactTimeout card.times arg q ≤ card.busyLimit ∨
    q ≤ card.params.prefErase / card.geometry.eraseSize

theorem mmcGroupTimeout_eq {times : EraseTimes} (hdef : times.eraseGroupDef = true) {arg : ℕ}
    (harg : arg = mmcEraseArg ∨ arg = mmcTrimArg) :
    mmcGroupTimeout times arg =
      if arg = mmcTrimArg then times.trimTimeout else times.hcEraseTimeout := by
  rcases harg with rfl | rfl
  · simp [mmcGroupTimeout, hdef, mmcEraseArg, mmcDiscardArg, mmcTrimArg]
  · simp [mmcGroupTimeout, hdef, mmcDiscardArg, mmcTrimArg, mmcSecureArgs]

theorem mmcGroupTimeout_lt {times : EraseTimes} (hdef : times.eraseGroupDef = true) {arg : ℕ}
    (harg : arg = mmcEraseArg ∨ arg = mmcTrimArg) : mmcGroupTimeout times arg < 2 ^ 32 := by
  rw [mmcGroupTimeout_eq hdef harg]
  split_ifs
  · exact times.trimTimeout_lt
  · exact times.hcEraseTimeout_lt

section Mmc

variable {card : DiscardCard} (hsd : card.geometry.sd = false)
  (hparams : ∃ mib, card.params = mmcInitErase card.geometry mib)

include hsd hparams

/-- The shift of an MMC card is that of its erase size. -/
theorem two_pow_eraseShift (hshift : card.params.eraseShift ≠ 0) :
    2 ^ card.params.eraseShift = card.geometry.eraseSize := by
  obtain ⟨mib, hmib⟩ := hparams
  have hgranule := granule_eq card.geometry mib
  rw [← hmib, if_pos hshift] at hgranule
  have hmmc : card.geometry.granule = card.geometry.eraseSize := by
    simp [EraseGeometry.granule, hsd]
  exact hgranule.symm.trans hmmc

theorem discardBounds_eq :
    discardBounds card =
      ((2 ^ 32 - 1) / card.geometry.eraseSize,
        card.params.prefErase / card.geometry.eraseSize) := by
  simp only [discardBounds, hsd, Bool.false_eq_true, if_false]
  split_ifs with hshift
  · rw [Nat.shiftRight_eq_div_pow, Nat.shiftRight_eq_div_pow,
      two_pow_eraseShift hsd hparams hshift]
  · rfl

theorem discardSectors_eq (qty : ℕ) :
    discardSectors card qty = qty * card.geometry.eraseSize % 2 ^ 32 := by
  simp only [discardSectors, hsd, Bool.false_eq_true, if_false]
  split_ifs with hshift
  · rw [Nat.shiftLeft_eq, two_pow_eraseShift hsd hparams hshift]
  · rfl

/-- **The search on a card.** It ends, and what it finds fits in the budget and in 32 bits. -/
theorem discardQty_spec (hdef : card.times.eraseGroupDef = true) {arg : ℕ}
    (harg : arg = mmcEraseArg ∨ arg = mmcTrimArg) :
    ∃ qty, (∀ fuel, 2 ^ 32 ≤ fuel → discardQty fuel card arg = some qty) ∧
      qty ≤ (2 ^ 32 - 1) / card.geometry.eraseSize ∧
      ∀ q, q ≤ qty → InBudget card arg q := by
  have ht := mmcGroupTimeout_lt hdef harg
  have htimeout : mmcEraseTimeout card.geometry card.times arg =
      probeTimeout card.times.spi (mmcGroupTimeout card.times arg) := by
    funext q
    rw [mmcEraseTimeout, hsd]
    rfl
  have hle : (2 ^ 32 - 1) / card.geometry.eraseSize ≤ 2 ^ 32 - 1 := Nat.div_le_self _ _
  have hmaxlt : (2 ^ 32 - 1) / card.geometry.eraseSize < 2 ^ 32 := by omega
  have hfuel' : (2 ^ 32 - 1) / card.geometry.eraseSize < 2 ^ 32 + 0 := by omega
  have hstart : Accepted card.times.spi (mmcGroupTimeout card.times arg)
      (card.params.prefErase / card.geometry.eraseSize) card.busyLimit 0 0 :=
    ⟨by norm_num, .inr (Nat.zero_le _), le_rfl⟩
  obtain ⟨qty, hsearch, hmax, hfits⟩ :=
    search_spec ht hmaxlt hfuel' (Nat.zero_le _) hstart
  refine ⟨qty, fun fuel hfuel => ?_, hmax, fun q hq => ?_⟩
  · rw [discardQty, discardBounds_eq hsd hparams, htimeout]
    exact search_of_le hfuel hsearch
  · rw [InBudget, exactTimeout, ← mmcGroupTimeout_eq hdef harg]
    exact hfits.mono hq

/-- **The discard budget.** The function ends. Its result does not wrap, and a range no longer than
it touches groups within the budget, or two groups when `eg_boundary` is set. -/
theorem mmcDoCalcMaxDiscard_budget (hpos : 0 < card.geometry.eraseSize)
    (hdef : card.times.eraseGroupDef = true) {arg : ℕ}
    (harg : arg = mmcEraseArg ∨ arg = mmcTrimArg) :
    ∃ qty result egBoundary,
      (∀ fuel, 2 ^ 32 ≤ fuel → discardQty fuel card arg = some qty ∧
        mmcDoCalcMaxDiscard fuel card arg = some (result, egBoundary)) ∧
      result = (if qty ≤ 1 then qty else qty - 1) * card.geometry.eraseSize ∧
      result < 2 ^ 32 ∧
      ∀ a b, a ≤ b → b < a + result →
        InBudget card arg (groupsTouched card.geometry.eraseSize a b) ∨
          egBoundary = true ∧ groupsTouched card.geometry.eraseSize a b = 2 := by
  obtain ⟨qty, hqty, hmax, hbudget⟩ := discardQty_spec hsd hparams hdef harg
  have hlt {n : ℕ} (hn : n ≤ qty) : n * card.geometry.eraseSize < 2 ^ 32 := by
    have hmul := (Nat.le_div_iff_mul_le hpos).mp (hn.trans hmax)
    omega
  have hsectors {n : ℕ} (hn : n ≤ qty) :
      discardSectors card n = n * card.geometry.eraseSize := by
    rw [discardSectors_eq hsd hparams, Nat.mod_eq_of_lt (hlt hn)]
  rcases Nat.lt_trichotomy qty 1 with hzero | rfl | hmany
  · obtain rfl : qty = 0 := by omega
    refine ⟨0, 0, card.egBoundary, fun fuel hfuel => ⟨hqty fuel hfuel, ?_⟩, by simp, by norm_num,
      fun a b hab hb => by omega⟩
    rw [mmcDoCalcMaxDiscard, hqty fuel hfuel]
    rfl
  · refine ⟨1, _, true, fun fuel hfuel => ⟨hqty fuel hfuel, ?_⟩, rfl, hlt le_rfl,
      fun a b hab hb => ?_⟩
    · rw [mmcDoCalcMaxDiscard, hqty fuel hfuel]
      simp only [Nat.one_ne_zero, if_false, if_true, hsectors le_rfl]
      rfl
    · -- the range is no longer than one group, but may cross a boundary
      rw [if_pos le_rfl] at hb
      have hle := groupsTouched_le hpos hab hb
      by_cases htwo : groupsTouched card.geometry.eraseSize a b = 2
      · exact .inr ⟨rfl, htwo⟩
      · exact .inl (hbudget _ (by omega))
  · refine ⟨qty, _, card.egBoundary, fun fuel hfuel => ⟨hqty fuel hfuel, ?_⟩, rfl, ?_,
      fun a b hab hb => .inl (hbudget _ ?_)⟩
    · rw [mmcDoCalcMaxDiscard, hqty fuel hfuel]
      simp only [if_neg (show ¬qty = 0 by omega), if_neg (show ¬qty = 1 by omega),
        if_neg (show ¬qty ≤ 1 by omega), hsectors (Nat.sub_le qty 1)]
    · rw [if_neg (by omega)]
      exact hlt (Nat.sub_le qty 1)
    · rw [if_neg (by omega)] at hb
      have hle := groupsTouched_le hpos hab hb
      omega

end Mmc

/-- An eMMC of 8 GiB with erase groups of 512 KiB, each of which takes 300 ms. -/
def discardSampleCard : DiscardCard where
  geometry := ⟨false, 1024, 0, by norm_num, by decide⟩
  params := mmcInitErase ⟨false, 1024, 0, by norm_num, by decide⟩ 8192
  times := ⟨false, 52000000, 6, 300, 300, true, 1, 1, 0, 0, 0, 0, 0, by norm_num, by norm_num⟩
  maxBusyTimeout := 0
  egBoundary := false

/-- 200 groups take one minute, and a range of 199 groups touches no more than these. -/
theorem mmcDoCalcMaxDiscard_budget_sample :
    ∃ qty result egBoundary,
      (∀ fuel, 2 ^ 32 ≤ fuel → discardQty fuel discardSampleCard mmcEraseArg = some qty ∧
        mmcDoCalcMaxDiscard fuel discardSampleCard mmcEraseArg = some (result, egBoundary)) ∧
      result = (if qty ≤ 1 then qty else qty - 1) * 1024 ∧
      result < 2 ^ 32 ∧
      ∀ a b, a ≤ b → b < a + result →
        InBudget discardSampleCard mmcEraseArg (groupsTouched 1024 a b) ∨
          egBoundary = true ∧ groupsTouched 1024 a b = 2 :=
  @mmcDoCalcMaxDiscard_budget discardSampleCard rfl ⟨8192, rfl⟩ (by decide) rfl mmcEraseArg
    (.inl rfl)

example : mmcDoCalcMaxDiscard 5 discardSampleCard mmcEraseArg = some (199 * 1024, false) := by
  decide

end LinuxDriver.Mmc
