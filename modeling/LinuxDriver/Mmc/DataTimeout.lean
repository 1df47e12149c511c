import LinuxDriver.Mmc.Capacity

/-!
# The timeout of a data transfer

`mmc_set_data_timeout` of `core/core.c` multiplies the access times of the CSD by a factor that
depends on the card, and for a write on `r2w_factor`. For an SD card the result is limited from
above, and on an SPI host from below. The access time is up to 80 ms, in nanoseconds, and the factor
of a write up to `100 << 7`, so that the product may not fit into 32 bits. Then a timeout that is
too short may be left. `mmc_mmc_erase_timeout` avoids the same overflow.

## Main definitions

* `mmcDecodeCsdMmc`: `mmc_decode_csd` of `core/mmc.c`.
* `TimeoutCard`, `mmcSetDataTimeout`.
* `exactTime`, `DataTimeout.time`: the exact timeout, and the one computed, in nanoseconds.
* `NotShort`: the timeout is not below the exact one, or not below the limit of an SD card.
* `StillLong`: a product that wraps leaves a timeout that is long enough.

## Main results

* `decoded_bounds`: the fields of the CSD that the timeout is computed from.
* `mmcSetDataTimeout_notShort_iff`: when the timeout is not too short.
-/

namespace LinuxDriver.Mmc

/-! ### Cards -/

/-- `mmc_decode_csd` of an MMC card. The fields in front of `erase_size` are those of an SD card of
structure version 0. -/
def mmcDecodeCsdMmc (resp : RawReg) (csd : Csd) : Except ℤ Csd :=
  if unstuffBits resp 126 2 = 0 then .error (-einval)
  else
    let decoded := decodeCsd0 resp csd
    let a := unstuffBits resp 42 5
    let b := unstuffBits resp 37 5
    .ok { decoded with
      eraseSize :=
        if 9 ≤ decoded.writeBlkbits then
          (a + 1) * (b + 1) <<< (decoded.writeBlkbits - 9) % 2 ^ 32
        else csd.eraseSize }

/-- The type of a card. -/
inductive CardType
  | mmc
  | sd
  | sdio
  | sdCombo
  deriving DecidableEq

/-- `ios.clock` of a host, which is off or at least 1 kHz, and whether it is an SPI host. -/
structure TimeoutHost where
  clock : ℕ
  spi : Bool
  clock_ok : clock = 0 ∨ 1000 ≤ clock

/-- What the timeout depends on. `longReadTime` is the quirk of cards that take long to read. -/
structure TimeoutCard where
  type : CardType
  csd : Csd
  longReadTime : Bool
  host : TimeoutHost

/-- The CSD of the card is decoded from the raw register, for an SD card and for an MMC card. -/
def Decoded : CardType → RawReg → Csd → Prop
  | .mmc, raw, csd => ∃ old, mmcDecodeCsdMmc raw old = .ok csd
  | .sd, raw, csd => ∃ old card, mmcDecodeCsd raw old = .ok card ∧ card.csd = csd
  | _, _, _ => False

/-! ### The function -/

/-- `timeout_ns` and `timeout_clks` of the data. -/
structure DataTimeout where
  ns : ℕ
  clks : ℕ
  deriving DecidableEq

/-- `limit_us` -/
def limitUs : DataDir → ℕ
  | .write => 3000000
  | .read => 100000

/-- `timeout_us` -/
def timeoutUs (host : TimeoutHost) (data : DataTimeout) : ℕ :=
  let us := data.ns / 1000
  if host.clock ≠ 0 then (us + data.clks * 1000 % 2 ^ 32 / (host.clock / 1000)) % 2 ^ 32 else us

/-- The limit of an SD card. -/
def limitTimeout (host : TimeoutHost) (dir : DataDir) (data : DataTimeout) : DataTimeout :=
  let us := timeoutUs host data
  let limited := if limitUs dir < us then ⟨limitUs dir * 1000, 0⟩ else data
  if us = 0 then { limited with ns := limitUs dir * 1000 } else limited

/-- The least `timeout_ns` on an SPI host. -/
def spiMinNs : DataDir → ℕ
  | .write => 1000000000
  | .read => 100000000

/-- The `timeout_ns` of an SPI host. -/
def floorNs (host : TimeoutHost) (dir : DataDir) (ns : ℕ) : ℕ :=
  if host.spi ∧ ns < spiMinNs dir then spiMinNs dir else ns

/-- `mmc_set_data_timeout` -/
def mmcSetDataTimeout (card : TimeoutCard) (dir : DataDir) : DataTimeout :=
  if card.type = .sdio then ⟨1000000000, 0⟩
  else
    let mult := if card.type = .sd then 100 else 10
    let mult := if dir = .write then mult <<< card.csd.r2wFactor % 2 ^ 32 else mult
    let data : DataTimeout := ⟨card.csd.taacNs * mult % 2 ^ 32, card.csd.taacClks * mult % 2 ^ 32⟩
    let data := if card.type = .sd then limitTimeout card.host dir data else data
    let data := if card.longReadTime ∧ dir = .read then ⟨600000000, 0⟩ else data
    { data with ns := floorNs card.host dir data.ns }

/-! ### Exact times -/

/-- The time of some cycles of the clock, in nanoseconds. A clock that is off has no cycles. -/
def TimeoutHost.cycleNs (host : TimeoutHost) (clks : ℕ) : ℚ := clks * 10 ^ 9 / host.clock

/-- The time of a timeout, in nanoseconds. -/
def DataTimeout.time (host : TimeoutHost) (data : DataTimeout) : ℚ :=
  data.ns + host.cycleNs data.clks

section Exact

variable (card : TimeoutCard) (dir : DataDir)

/-- The factor of the card and the direction, exact. -/
def exactMult : ℕ :=
  (if card.type = .sd then 100 else 10) * if dir = .write then 2 ^ card.csd.r2wFactor else 1

/-- The exact product `taac_ns * mult`. -/
def exactNs : ℕ := card.csd.taacNs * exactMult card dir

/-- The exact product `taac_clks * mult`. -/
def exactClks : ℕ := card.csd.taacClks * exactMult card dir

/-- The exact timeout, in nanoseconds. -/
def exactTime : ℚ := exactNs card dir + card.host.cycleNs (exactClks card dir)

/-- The timeout is at least the exact one, or for an SD card at least the limit. -/
def NotShort : Prop :=
  (if card.type = .sd then min (exactTime card dir) (limitUs dir * 1000) else exactTime card dir) ≤
    (mmcSetDataTimeout card dir).time card.host

/-- A product that wraps leaves a timeout of an SD card that is long enough: the estimate of it in
microseconds is zero or above the limit, so that the limit is taken, or the time reaches the limit
with the floor of an SPI host and the cycles. -/
def StillLong : Prop :=
  let ns := exactNs card dir % 2 ^ 32
  let clks := exactClks card dir
  let us := (ns / 1000 + clks * 1000 % 2 ^ 32 / (card.host.clock / 1000)) % 2 ^ 32
  us = 0 ∨ limitUs dir < us ∨
    (limitUs dir * 1000 : ℚ) ≤ floorNs card.host dir ns + card.host.cycleNs clks

end Exact

/-! ### The fields of the CSD -/

theorem unstuffBits_lt (raw : RawReg) {start size : ℕ} (hpos : 1 ≤ size) (hsize : size ≤ 32)
    (h : start + size ≤ 128) : unstuffBits raw start size < 2 ^ size := by
  rw [unstuffBits_eq raw hpos hsize h]
  exact Nat.mod_lt _ (Nat.two_pow_pos size)

/-- The access times in nanoseconds: at most 80 ms, and a hundred of them either fit into 32 bits or
miss them by more than the limit of a read. -/
structure TaacRange (ns : ℕ) : Prop where
  le : ns ≤ 80000000
  gap : ns * 100 < 2 ^ 32 ∨ 2 ^ 32 + 100001000 ≤ ns * 100

theorem taacRange_zero : TaacRange 0 := ⟨Nat.zero_le _, .inl (by norm_num)⟩

theorem taacRange_decoded {e m : ℕ} (he : e < 8) (hm : m < 16) :
    TaacRange (wrapAdd 32 (taacExp.getD e 0 * taacMant.getD m 0 % 2 ^ 32) 9 / 10) := by
  have hall : ∀ e : Fin 8, ∀ m : Fin 16,
      wrapAdd 32 (taacExp.getD e 0 * taacMant.getD m 0 % 2 ^ 32) 9 / 10 ≤ 80000000 ∧
      (wrapAdd 32 (taacExp.getD e 0 * taacMant.getD m 0 % 2 ^ 32) 9 / 10 * 100 < 2 ^ 32 ∨
        2 ^ 32 + 100001000 ≤
          wrapAdd 32 (taacExp.getD e 0 * taacMant.getD m 0 % 2 ^ 32) 9 / 10 * 100) := by
    decide
  obtain ⟨hle, hgap⟩ := hall ⟨e, he⟩ ⟨m, hm⟩
  exact ⟨hle, hgap⟩

/-- What a timeout relies on about the CSD. -/
structure TimingBounds (csd : Csd) : Prop where
  taacNs : TaacRange csd.taacNs
  taacClks_le : csd.taacClks ≤ 25500
  r2wFactor_le : csd.r2wFactor ≤ 7

theorem timingBounds_decodeCsd0 (raw : RawReg) (csd : Csd) : TimingBounds (decodeCsd0 raw csd) := by
  have he : unstuffBits raw 112 3 < 2 ^ 3 :=
    unstuffBits_lt raw (by norm_num) (by norm_num) (by norm_num)
  have hm : unstuffBits raw 115 4 < 2 ^ 4 :=
    unstuffBits_lt raw (by norm_num) (by norm_num) (by norm_num)
  have hclks : unstuffBits raw 104 8 < 2 ^ 8 :=
    unstuffBits_lt raw (by norm_num) (by norm_num) (by norm_num)
  have hr2w : unstuffBits raw 26 3 < 2 ^ 3 :=
    unstuffBits_lt raw (by norm_num) (by norm_num) (by norm_num)
  refine ⟨taacRange_decoded he hm, ?_, ?_⟩
  · simp only [decodeCsd0]
    omega
  · simp only [decodeCsd0]
    omega

theorem timingBounds_decodeCsd1 (raw : RawReg) (csd : Csd) : TimingBounds (decodeCsd1 raw csd) :=
  ⟨taacRange_zero, Nat.zero_le _, by norm_num [decodeCsd1]⟩

/-- **The fields of a decoded CSD.** -/
theorem decoded_bounds {type : CardType} {raw : RawReg} {csd : Csd} (h : Decoded type raw csd) :
    TimingBounds csd := by
  cases type with
  | mmc =>
    obtain ⟨old, hold⟩ := h
    rw [mmcDecodeCsdMmc] at hold
    split_ifs at hold
    obtain rfl := Except.ok.inj hold
    have hbounds := timingBounds_decodeCsd0 raw old
    exact ⟨hbounds.taacNs, hbounds.taacClks_le, hbounds.r2wFactor_le⟩
  | sd =>
    obtain ⟨old, card, hold, rfl⟩ := h
    unfold mmcDecodeCsd at hold
    split at hold
    · obtain rfl := Except.ok.inj hold
      exact timingBounds_decodeCsd0 raw old.csd
    · obtain rfl := Except.ok.inj hold
      exact timingBounds_decodeCsd1 raw old.csd
    · cases hold
  | sdio => exact h.elim
  | sdCombo => exact h.elim

/-! ### The products -/

section Products

variable {card : TimeoutCard} {dir : DataDir}

theorem exactMult_le (hb : TimingBounds card.csd) (dir : DataDir) :
    exactMult card dir ≤ 12800 := by
  have hpow : 2 ^ card.csd.r2wFactor ≤ 2 ^ 7 :=
    Nat.pow_le_pow_right (by norm_num) hb.r2wFactor_le
  have hbase : (if card.type = .sd then 100 else 10) ≤ 100 := by
    split_ifs <;> norm_num
  have hfactor : (if dir = .write then 2 ^ card.csd.r2wFactor else 1) ≤ 128 := by
    split_ifs <;> omega
  exact Nat.mul_le_mul hbase hfactor

/-- The multiplier of the code does not wrap. -/
theorem mult_eq (hb : TimingBounds card.csd) (dir : DataDir) :
    (if dir = .write then (if card.type = .sd then 100 else 10) <<< card.csd.r2wFactor % 2 ^ 32
      else if card.type = .sd then 100 else 10) = exactMult card dir := by
  have hle := exactMult_le hb dir
  cases dir with
  | write =>
    rw [exactMult, if_pos rfl] at hle
    rw [exactMult, if_pos rfl, if_pos rfl, Nat.shiftLeft_eq, Nat.mod_eq_of_lt (by omega)]
  | read => simp [exactMult]

/-- Neither does the product of the cycles. -/
theorem exactClks_lt (hb : TimingBounds card.csd) (dir : DataDir) :
    exactClks card dir < 2 ^ 32 :=
  (Nat.mul_le_mul hb.taacClks_le (exactMult_le hb dir)).trans_lt (by norm_num)

/-- The timeout of a card that is no SDIO card, without the quirk. -/
theorem mmcSetDataTimeout_eq (hb : TimingBounds card.csd) (hsdio : card.type ≠ .sdio)
    (hquirk : card.longReadTime = false) :
    mmcSetDataTimeout card dir =
      let wrapped : DataTimeout := ⟨exactNs card dir % 2 ^ 32, exactClks card dir⟩
      let data := if card.type = .sd then limitTimeout card.host dir wrapped else wrapped
      { data with ns := floorNs card.host dir data.ns } := by
  have hclks : card.csd.taacClks * exactMult card dir % 2 ^ 32 = exactClks card dir :=
    Nat.mod_eq_of_lt (exactClks_lt hb dir)
  have hno : ¬(card.longReadTime = true ∧ dir = .read) := by simp [hquirk]
  simp only [mmcSetDataTimeout, if_neg hsdio, mult_eq hb, hclks, if_neg hno, exactNs]

/-! ### The floor and the limit -/

theorem le_floorNs (host : TimeoutHost) (dir : DataDir) (ns : ℕ) : ns ≤ floorNs host dir ns := by
  rw [floorNs]
  split_ifs with h
  · exact h.2.le
  · exact le_rfl

/-- A value of 32 bits is raised to one of 32 bits. -/
theorem floorNs_lt {host : TimeoutHost} {dir : DataDir} {ns : ℕ} (h : ns < 2 ^ 32) :
    floorNs host dir ns < 2 ^ 32 := by
  rw [floorNs]
  split_ifs
  · cases dir <;> norm_num [spiMinNs]
  · exact h

/-- The product, wrapped and raised, is not below the exact one if and only if it fits. -/
theorem le_floorNs_mod_iff (host : TimeoutHost) (dir : DataDir) (ns : ℕ) :
    ns ≤ floorNs host dir (ns % 2 ^ 32) ↔ ns < 2 ^ 32 := by
  constructor
  · intro h
    exact h.trans_lt (floorNs_lt (Nat.mod_lt _ (by norm_num)))
  · intro h
    rw [Nat.mod_eq_of_lt h]
    exact le_floorNs host dir ns

theorem cycleNs_nonneg (host : TimeoutHost) (clks : ℕ) : 0 ≤ host.cycleNs clks := by
  rw [TimeoutHost.cycleNs]
  positivity

/-- The estimate of the code, as one formula. -/
theorem timeoutUs_eq (host : TimeoutHost) {ns : ℕ} (hns : ns < 2 ^ 32) (clks : ℕ) :
    timeoutUs host ⟨ns, clks⟩ =
      (ns / 1000 + clks * 1000 % 2 ^ 32 / (host.clock / 1000)) % 2 ^ 32 := by
  rw [timeoutUs]
  split_ifs with hclock
  · rfl
  · have hzero : host.clock = 0 := not_not.mp hclock
    have hlt : ns / 1000 < 2 ^ 32 := (Nat.div_le_self ..).trans_lt hns
    rw [hzero, Nat.zero_div, Nat.div_zero, Nat.add_zero, Nat.mod_eq_of_lt hlt]

/-- A timeout to which the limit is applied has at least the time of the limit. -/
theorem limit_le_time {host : TimeoutHost} {data : DataTimeout}
    (h : timeoutUs host data = 0 ∨ limitUs dir < timeoutUs host data) :
    (limitUs dir * 1000 : ℚ) ≤
      DataTimeout.time host { limitTimeout host dir data with
        ns := floorNs host dir (limitTimeout host dir data).ns } := by
  have hns : (limitTimeout host dir data).ns = limitUs dir * 1000 := by
    simp only [limitTimeout]
    obtain hzero | habove := h
    · simp [hzero]
    · have hne : timeoutUs host data ≠ 0 := by omega
      simp [hne, habove]
  have hle := le_floorNs host dir (limitUs dir * 1000)
  have hcast : (limitUs dir * 1000 : ℚ) ≤ (floorNs host dir (limitUs dir * 1000) : ℕ) := by
    exact_mod_cast hle
  rw [DataTimeout.time, hns]
  exact hcast.trans (le_add_of_nonneg_right (cycleNs_nonneg host _))

/-- Otherwise the limit changes nothing. -/
theorem limitTimeout_eq {host : TimeoutHost} {data : DataTimeout}
    (h : ¬(timeoutUs host data = 0 ∨ limitUs dir < timeoutUs host data)) :
    limitTimeout host dir data = data := by
  rw [not_or] at h
  simp only [limitTimeout, if_neg h.1, if_neg h.2]

/-! ### The two kinds of cards -/

/-- An MMC card: the timeout is not too short if and only if the product fits. -/
theorem notShort_iff_of_mmc (hb : TimingBounds card.csd) (htype : card.type = .mmc)
    (hquirk : card.longReadTime = false) : NotShort card dir ↔ exactNs card dir < 2 ^ 32 := by
  have hsd : card.type ≠ .sd := by simp [htype]
  rw [NotShort, mmcSetDataTimeout_eq hb (by simp [htype]) hquirk]
  simp only [if_neg hsd, exactTime, DataTimeout.time]
  rw [add_le_add_iff_right, Nat.cast_le, le_floorNs_mod_iff]

/-- An SD card: the timeout is not too short if and only if the product fits, or what is left of
it is still long enough. -/
theorem notShort_iff_of_sd (hb : TimingBounds card.csd) (htype : card.type = .sd)
    (hquirk : card.longReadTime = false) :
    NotShort card dir ↔ exactNs card dir < 2 ^ 32 ∨ StillLong card dir := by
  have hestimate := timeoutUs_eq card.host
    (Nat.mod_lt (exactNs card dir) (by norm_num : 2 ^ 32 > 0)) (exactClks card dir)
  rw [NotShort, mmcSetDataTimeout_eq hb (by simp [htype]) hquirk, StillLong, ← hestimate]
  simp only [if_pos htype]
  by_cases hlimit : timeoutUs card.host ⟨exactNs card dir % 2 ^ 32, exactClks card dir⟩ = 0 ∨
      limitUs dir < timeoutUs card.host ⟨exactNs card dir % 2 ^ 32, exactClks card dir⟩
  · refine iff_of_true ((min_le_right _ _).trans (limit_le_time hlimit)) (.inr ?_)
    exact hlimit.imp_right .inl
  · rw [limitTimeout_eq hlimit, min_le_iff]
    simp only [exactTime, DataTimeout.time]
    rw [add_le_add_iff_right, Nat.cast_le, le_floorNs_mod_iff]
    tauto

/-- What is left of the product of an SD card for a read, if it does not fit, is above the limit. -/
theorem stillLong_of_read (hb : TimingBounds card.csd) (htype : card.type = .sd)
    (hwrap : 2 ^ 32 ≤ exactNs card .read) : StillLong card .read := by
  have hmult : exactMult card .read = 100 := by simp [exactMult, htype]
  have hns : exactNs card .read = card.csd.taacNs * 100 := by rw [exactNs, hmult]
  have hclks : exactClks card .read = card.csd.taacClks * 100 := by rw [exactClks, hmult]
  have htaac := hb.taacNs.le
  have habove : 2 ^ 32 + 100001000 ≤ exactNs card .read :=
    hns ▸ hb.taacNs.gap.resolve_left (by omega)
  have hrest : exactNs card .read % 2 ^ 32 = exactNs card .read - 2 ^ 32 := by omega
  have hcycles : exactClks card .read * 1000 % 2 ^ 32 / (card.host.clock / 1000) ≤ 2550000000 := by
    have hle := hb.taacClks_le
    exact (Nat.div_le_self ..).trans ((Nat.mod_le ..).trans (by omega))
  refine .inr (.inl ?_)
  generalize exactClks card .read * 1000 % 2 ^ 32 / (card.host.clock / 1000) = cycles at hcycles ⊢
  rw [Nat.mod_eq_of_lt (by omega), hrest, limitUs]
  omega

/-- What is left of the product of an SD card for a write, without cycles: it is too short between a
microsecond and the limit. -/
theorem stillLong_write_iff (hclks : card.csd.taacClks = 0) :
    StillLong card .write ↔ exactNs card .write % 2 ^ 32 < 1000 ∨
      3000000000 ≤ exactNs card .write % 2 ^ 32 := by
  have hzero : exactClks card .write = 0 := by rw [exactClks, hclks, Nat.zero_mul]
  have hcycles : card.host.cycleNs 0 = 0 := by simp [TimeoutHost.cycleNs]
  have hlt : exactNs card .write % 2 ^ 32 < 2 ^ 32 := Nat.mod_lt _ (by norm_num)
  unfold StillLong
  dsimp only
  rw [hzero, hcycles, add_zero, Nat.zero_mul, Nat.zero_mod, Nat.zero_div, Nat.add_zero]
  generalize exactNs card .write % 2 ^ 32 = ns at hlt ⊢
  have hlimit : (limitUs .write * 1000 : ℚ) ≤ floorNs card.host .write ns ↔ 3000000000 ≤ ns := by
    have hfloor : 3000000000 ≤ floorNs card.host .write ns ↔ 3000000000 ≤ ns := by
      rw [floorNs, spiMinNs]
      split_ifs <;> omega
    rw [← hfloor, limitUs]
    norm_cast
  rw [hlimit, limitUs, Nat.mod_eq_of_lt (by omega)]
  omega

/-- A read is never too short. -/
theorem notShort_of_read (hb : TimingBounds card.csd) (htype : card.type = .mmc ∨ card.type = .sd)
    (hquirk : card.longReadTime = false) : NotShort card .read := by
  obtain hmmc | hsd := htype
  · rw [notShort_iff_of_mmc hb hmmc hquirk]
    have hmult : exactMult card .read = 10 := by simp [exactMult, hmmc]
    have hle := hb.taacNs.le
    rw [exactNs, hmult]
    omega
  · rw [notShort_iff_of_sd hb hsd hquirk]
    by_cases hfits : exactNs card .read < 2 ^ 32
    · exact .inl hfits
    · exact .inr (stillLong_of_read hb hsd (not_lt.mp hfits))

end Products

/-- **The timeout of a data transfer.** -/
theorem mmcSetDataTimeout_notShort_iff {card : TimeoutCard} {raw : RawReg}
    (hcsd : Decoded card.type raw card.csd) (hquirk : card.longReadTime = false) (dir : DataDir) :
    NotShort card dir ↔
      dir = .read ∨ exactNs card dir < 2 ^ 32 ∨ card.type = .sd ∧ StillLong card dir := by
  have hb := decoded_bounds hcsd
  have htype : card.type = .mmc ∨ card.type = .sd := by
    cases ht : card.type with
    | mmc => exact .inl rfl
    | sd => exact .inr rfl
    | sdio => exact (ht ▸ hcsd).elim
    | sdCombo => exact (ht ▸ hcsd).elim
  by_cases hread : dir = .read
  · subst hread
    exact iff_of_true (notShort_of_read hb htype hquirk) (.inl rfl)
  · obtain hmmc | hsd := htype
    · rw [notShort_iff_of_mmc hb hmmc hquirk]
      simp [hread, hmmc]
    · rw [notShort_iff_of_sd hb hsd hquirk]
      simp [hread, hsd]

/-- A raw register of structure version 0 with the longest access time and the largest factor. -/
def slowRaw : RawReg := ⟨![0x7F0000, 0, 0, 0x1C000000], by decide⟩

/-- The fields of a CSD before it is decoded. -/
def blankCsd : Csd := ⟨0, 0, 0, 0, 0, 0, 0, 0, 0, 0, 0, 0, 0, 0, 0⟩

/-- An SD card with this register, at 25 MHz. -/
def slowCard : TimeoutCard :=
  ⟨.sd, decodeCsd0 slowRaw blankCsd, false, ⟨25000000, false, .inr (by decide)⟩⟩

theorem slowCard_decoded : Decoded slowCard.type slowRaw slowCard.csd :=
  ⟨⟨blankCsd, false, false, 0⟩, _, rfl, rfl⟩

theorem mmcSetDataTimeout_notShort_iff_slowCard :
    NotShort slowCard .read ↔ DataDir.read = .read ∨ exactNs slowCard .read < 2 ^ 32 ∨
      slowCard.type = .sd ∧ StillLong slowCard .read :=
  mmcSetDataTimeout_notShort_iff slowCard_decoded rfl .read

/-- **A timeout cut short.** The access time of 80 ms and the factor `100 << 7` make 1024 s, of
which 1.8 s are left for a write, below the limit of 3 s. -/
theorem slowCard_short :
    Decoded slowCard.type slowRaw slowCard.csd ∧
    mmcSetDataTimeout slowCard .write = ⟨1797783552, 0⟩ ∧ exactNs slowCard .write = 1024000000000 ∧
    ¬NotShort slowCard .write := by
  have htimeout : mmcSetDataTimeout slowCard .write = ⟨1797783552, 0⟩ := by decide +kernel
  have hns : exactNs slowCard .write = 1024000000000 := by decide +kernel
  have hclks : exactClks slowCard .write = 0 := by decide +kernel
  have htype : slowCard.type = CardType.sd := rfl
  refine ⟨slowCard_decoded, htimeout, hns, fun h => ?_⟩
  rw [NotShort, htimeout, if_pos htype, exactTime, hns, hclks] at h
  norm_num [DataTimeout.time, TimeoutHost.cycleNs, limitUs] at h

end LinuxDriver.Mmc
