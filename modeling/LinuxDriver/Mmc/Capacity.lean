import LinuxDriver.Mmc.EraseGroups
import LinuxDriver.Mmc.RawRegister

/-!
# The capacity of an SD card

`mmc_decode_csd` takes the capacity of an SD card from its CSD, in units of `2 ^ read_blkbits`
bytes. `mmc_blk_alloc` and `mmc_init_erase` convert it to sectors with a shift by
`read_blkbits - 9`. The decoder asks whether `write_blkbits` is at least 9 before it shifts by
`write_blkbits - 9`; for `read_blkbits` nobody asks.

## Main definitions

* `Csd`, `SdCard`, `mmcDecodeCsd`.
* `mmcBlkAllocSize`: the size of the disk, or `none` if the shift is not defined.
* `mmcInitEraseCsd`: `mmc_init_erase` with its shift.
* `specSectors`: the number of sectors that the fields denote.

## Main results

* `mmcDecodeCsd_capacity_iff`: the CSDs with which the size is exact and the shifts are defined.
-/

namespace LinuxDriver.Mmc

/-! ### Decoding -/

def tranExp : List ℕ := [10000, 100000, 1000000, 10000000, 0, 0, 0, 0]
def tranMant : List ℕ := [0, 10, 12, 13, 15, 20, 25, 30, 35, 40, 45, 50, 55, 60, 70, 80]
def taacExp : List ℕ := [1, 10, 100, 1000, 10000, 100000, 1000000, 10000000]
def taacMant : List ℕ := [0, 10, 12, 13, 15, 20, 25, 30, 35, 40, 45, 50, 55, 60, 70, 80]

/-- `mmc_csd` -/
structure Csd where
  taacNs : ℕ
  taacClks : ℕ
  maxDtr : ℕ
  cmdclass : ℕ
  cSize : ℕ
  capacity : ℕ
  readBlkbits : ℕ
  readPartial : ℕ
  writeMisalign : ℕ
  readMisalign : ℕ
  dsrImp : ℕ
  r2wFactor : ℕ
  writeBlkbits : ℕ
  writePartial : ℕ
  eraseSize : ℕ

/-- An SD card, with the flags that `mmc_card_set_blockaddr` and `mmc_card_set_ext_capacity` set. -/
structure SdCard where
  csd : Csd
  blockaddr : Bool
  extCapacity : Bool
  eraseSize : ℕ

/-- The case of structure version 0. -/
def decodeCsd0 (resp : RawReg) (csd : Csd) : Csd :=
  let writeBlkbits := unstuffBits resp 22 4
  { csd with
    taacNs := wrapAdd 32 (taacExp.getD (unstuffBits resp 112 3) 0 *
      taacMant.getD (unstuffBits resp 115 4) 0 % 2 ^ 32) 9 / 10
    taacClks := unstuffBits resp 104 8 * 100
    maxDtr := tranExp.getD (unstuffBits resp 96 3) 0 *
      tranMant.getD (unstuffBits resp 99 4) 0 % 2 ^ 32
    cmdclass := unstuffBits resp 84 12
    capacity := wrapAdd 32 1 (unstuffBits resp 62 12) <<< (unstuffBits resp 47 3 + 2) % 2 ^ 32
    readBlkbits := unstuffBits resp 80 4
    readPartial := unstuffBits resp 79 1
    writeMisalign := unstuffBits resp 78 1
    readMisalign := unstuffBits resp 77 1
    dsrImp := unstuffBits resp 76 1
    r2wFactor := unstuffBits resp 26 3
    writeBlkbits := writeBlkbits
    writePartial := unstuffBits resp 21 1
    eraseSize :=
      if unstuffBits resp 46 1 ≠ 0 then 1
      else if 9 ≤ writeBlkbits then
        wrapAdd 32 (unstuffBits resp 39 7) 1 <<< (writeBlkbits - 9) % 2 ^ 32
      else csd.eraseSize }

/-- The case of structure version 1. -/
def decodeCsd1 (resp : RawReg) (csd : Csd) : Csd :=
  { csd with
    taacNs := 0
    taacClks := 0
    maxDtr := tranExp.getD (unstuffBits resp 96 3) 0 *
      tranMant.getD (unstuffBits resp 99 4) 0 % 2 ^ 32
    cmdclass := unstuffBits resp 84 12
    cSize := unstuffBits resp 48 22
    capacity := wrapAdd 32 1 (unstuffBits resp 48 22) <<< 10 % 2 ^ 32
    readBlkbits := 9
    readPartial := 0
    writeMisalign := 0
    readMisalign := 0
    r2wFactor := 4
    writeBlkbits := 9
    writePartial := 0
    eraseSize := 1 }

/-- `mmc_decode_csd` of an SD card. -/
def mmcDecodeCsd (resp : RawReg) (card : SdCard) : Except ℤ SdCard :=
  match unstuffBits resp 126 2 with
  | 0 =>
    let csd := decodeCsd0 resp card.csd
    .ok { card with csd := csd, eraseSize := csd.eraseSize }
  | 1 =>
    let csd := decodeCsd1 resp card.csd
    .ok { csd := csd
          blockaddr := true
          extCapacity := 0xFFFF ≤ csd.cSize || card.extCapacity
          eraseSize := csd.eraseSize }
  | _ => .error (-einval)

/-! ### Sizes -/

/-- The shift of an unsigned integer of `w` bits. A shift by `w` or more, and so one by a negative
amount that was converted to an unsigned one, is not defined. -/
def shiftLeft? (w x n : ℕ) : Option ℕ := if n < w then some (x <<< n % 2 ^ w) else none

/-- The `size` of `mmc_blk_alloc`, in 64 bits. -/
def mmcBlkAllocSize (sd blockaddr : Bool) (extSectors : ℕ) (csd : Csd) : Option ℕ :=
  if !sd && blockaddr then some extSectors
  else shiftLeft? 64 csd.capacity (wrapSub 32 csd.readBlkbits 9)

/-- `mmc_init_erase`, with the shift from which it has the size of a card. -/
def mmcInitEraseCsd (g : EraseGeometry) (csd : Csd) : Option EraseParams :=
  if (g.sd ∧ g.au ≠ 0) ∨ g.eraseSize = 0 then some (mmcInitErase g 0)
  else
    (shiftLeft? 32 csd.capacity (wrapSub 32 csd.readBlkbits 9)).map fun sz =>
      mmcInitErase g (sz >>> 11)

/-! ### What the fields denote -/

/-- The bits of a register from `start` on. -/
def RawReg.field (r : RawReg) (start size : ℕ) : ℕ := r.value / 2 ^ start % 2 ^ size

def RawReg.csdStructure (r : RawReg) : ℕ := r.field 126 2
def RawReg.readBlLen (r : RawReg) : ℕ := r.field 80 4

/-- `C_SIZE`, of which version 1 has a larger one. -/
def RawReg.cSize (r : RawReg) : ℕ := if r.csdStructure = 0 then r.field 62 12 else r.field 48 22

/-- The sectors of a card. -/
def specSectors (r : RawReg) : ℕ :=
  if r.csdStructure = 0 then (r.cSize + 1) * 2 ^ (r.field 47 3 + 2) * 2 ^ r.readBlLen / 512
  else (r.cSize + 1) * 1024

theorem field_lt (r : RawReg) (start size : ℕ) : r.field start size < 2 ^ size :=
  Nat.mod_lt _ (Nat.two_pow_pos size)

/-- The capacity that a CSD of version 0 can denote. -/
theorem capacity_le {r : RawReg} (hzero : r.csdStructure = 0) :
    (r.cSize + 1) * 2 ^ (r.field 47 3 + 2) ≤ 2 ^ 12 * 2 ^ 9 := by
  have hsize : r.cSize < 2 ^ 12 := by
    rw [RawReg.cSize, if_pos hzero]
    exact field_lt r 62 12
  have hmult : r.field 47 3 < 2 ^ 3 := field_lt r 47 3
  exact Nat.mul_le_mul hsize (Nat.pow_le_pow_right (by norm_num) (by omega))

theorem cSize_lt (r : RawReg) : r.cSize < 2 ^ 22 := by
  rw [RawReg.cSize]
  split_ifs
  · exact (field_lt r 62 12).trans (by norm_num)
  · exact field_lt r 48 22

section Decoded

variable {resp : RawReg} {card card' : SdCard}

/-- **What is accepted.** A CSD of version 0 or 1, with these two fields. -/
theorem mmcDecodeCsd_cases (h : mmcDecodeCsd resp card = .ok card') :
    (resp.csdStructure = 0 ∧ card'.csd.readBlkbits = resp.readBlLen ∧
      card'.csd.capacity = (resp.cSize + 1) * 2 ^ (resp.field 47 3 + 2)) ∨
    (resp.csdStructure = 1 ∧ card'.csd.readBlkbits = 9 ∧
      card'.csd.capacity = (resp.cSize + 1) * 1024 % 2 ^ 32) := by
  have hstruct : unstuffBits resp 126 2 = resp.csdStructure :=
    unstuffBits_eq resp (by norm_num) (by norm_num) (by norm_num)
  rw [mmcDecodeCsd, hstruct] at h
  split at h
  case h_1 hzero =>
    obtain rfl := Except.ok.inj h
    refine .inl ⟨hzero, unstuffBits_eq resp (by norm_num) (by norm_num) (by norm_num), ?_⟩
    have hsize : unstuffBits resp 62 12 = resp.cSize := by
      rw [RawReg.cSize, if_pos hzero]
      exact unstuffBits_eq resp (by norm_num) (by norm_num) (by norm_num)
    have hmult : unstuffBits resp 47 3 = resp.field 47 3 :=
      unstuffBits_eq resp (by norm_num) (by norm_num) (by norm_num)
    have hbound := capacity_le hzero
    have hsizelt := cSize_lt resp
    have hadd : wrapAdd 32 1 resp.cSize = resp.cSize + 1 := by
      rw [wrapAdd_of_lt (by omega), Nat.add_comm]
    change wrapAdd 32 1 (unstuffBits resp 62 12) <<< (unstuffBits resp 47 3 + 2) % 2 ^ 32 = _
    rw [hsize, hmult, hadd, Nat.shiftLeft_eq, Nat.mod_eq_of_lt (by omega)]
  case h_2 hone =>
    obtain rfl := Except.ok.inj h
    refine .inr ⟨hone, rfl, ?_⟩
    have hsize : unstuffBits resp 48 22 = resp.cSize := by
      rw [RawReg.cSize, if_neg (by omega)]
      exact unstuffBits_eq resp (by norm_num) (by norm_num) (by norm_num)
    have hsizelt := cSize_lt resp
    have hadd : wrapAdd 32 1 resp.cSize = resp.cSize + 1 := by
      rw [wrapAdd_of_lt (by omega), Nat.add_comm]
    change wrapAdd 32 1 (unstuffBits resp 48 22) <<< 10 % 2 ^ 32 = _
    rw [hsize, hadd, Nat.shiftLeft_eq]
  case h_3 => cases h

/-- The shift by `read_blkbits - 9`. -/
theorem shiftLeft?_blkbits {w : ℕ} (hlow : 7 ≤ w) (hhigh : w ≤ 64) (x : ℕ) {b : ℕ} (hb : b < 16) :
    shiftLeft? w x (wrapSub 32 b 9) = if 9 ≤ b then some (x * 2 ^ (b - 9) % 2 ^ w) else none := by
  rw [shiftLeft?]
  by_cases hle : 9 ≤ b
  · have hsub : wrapSub 32 b 9 = b - 9 := wrapSub_of_le (by omega) hle
    rw [hsub, if_pos hle, if_pos (by omega), Nat.shiftLeft_eq]
  · have hwrap : ∀ n < 9, 64 ≤ wrapSub 32 n 9 := by decide
    have hfar : 64 ≤ wrapSub 32 b 9 := hwrap b (by omega)
    rw [if_neg hle, if_neg (by omega)]

theorem specSectors_zero (hzero : resp.csdStructure = 0) (hle : 9 ≤ resp.readBlLen) :
    specSectors resp =
      (resp.cSize + 1) * 2 ^ (resp.field 47 3 + 2) * 2 ^ (resp.readBlLen - 9) := by
  have hpow : 2 ^ resp.readBlLen = 2 ^ (resp.readBlLen - 9) * 512 := by
    rw [show (512 : ℕ) = 2 ^ 9 by norm_num, ← pow_add, Nat.sub_add_cancel hle]
  rw [specSectors, if_pos hzero, hpow, ← Nat.mul_assoc, Nat.mul_div_cancel _ (by norm_num)]

/-- The size of the disk is that of the card, and no shift is by a negative amount. -/
structure CapacityExact (resp : RawReg) (card : SdCard) (g : EraseGeometry) (extSectors : ℕ) :
    Prop where
  size : mmcBlkAllocSize true card.blockaddr extSectors card.csd = some (specSectors resp)
  shift : (mmcInitEraseCsd g card.csd).isSome = true

theorem isSome_mmcInitEraseCsd (g : EraseGeometry) {csd : Csd} (hlt : csd.readBlkbits < 16)
    (hle : 9 ≤ csd.readBlkbits) : (mmcInitEraseCsd g csd).isSome = true := by
  rw [mmcInitEraseCsd]
  split_ifs
  · rfl
  · rw [shiftLeft?_blkbits (by norm_num) (by norm_num) _ hlt, if_pos hle]
    rfl

/-- **The capacity.** It is exact, and the shifts are defined, if and only if a CSD of version 0 has
blocks of 512 bytes or more, and one of version 1 does not have the largest `C_SIZE`. -/
theorem mmcDecodeCsd_capacity_iff (h : mmcDecodeCsd resp card = .ok card') (g : EraseGeometry)
    (extSectors : ℕ) :
    CapacityExact resp card' g extSectors ↔
      (resp.csdStructure = 0 ∧ 9 ≤ resp.readBlLen) ∨
        (resp.csdStructure = 1 ∧ resp.cSize ≠ 2 ^ 22 - 1) := by
  have hsize : mmcBlkAllocSize true card'.blockaddr extSectors card'.csd =
      shiftLeft? 64 card'.csd.capacity (wrapSub 32 card'.csd.readBlkbits 9) := by
    rw [mmcBlkAllocSize, Bool.not_true, Bool.false_and]
    exact if_neg Bool.false_ne_true
  rcases mmcDecodeCsd_cases h with ⟨hzero, hbits, hcap⟩ | ⟨hone, hbits, hcap⟩
  · have hlt : resp.readBlLen < 16 := field_lt resp 80 4
    have hiff : 9 ≤ resp.readBlLen ↔ (resp.csdStructure = 0 ∧ 9 ≤ resp.readBlLen) ∨
        (resp.csdStructure = 1 ∧ resp.cSize ≠ 2 ^ 22 - 1) := by omega
    rw [hbits, hcap, shiftLeft?_blkbits (by norm_num) le_rfl _ hlt] at hsize
    rw [← hiff]
    constructor
    · rintro ⟨hexact, -⟩
      rw [hsize] at hexact
      by_contra hle
      rw [if_neg hle] at hexact
      cases hexact
    · rintro hle
      refine ⟨?_, isSome_mmcInitEraseCsd g (hbits ▸ hlt) (hbits ▸ hle)⟩
      have hbound : specSectors resp < 2 ^ 64 := by
        have hpow : 2 ^ (resp.readBlLen - 9) ≤ 2 ^ 6 :=
          Nat.pow_le_pow_right (by norm_num) (by omega)
        have hmul := Nat.mul_le_mul (capacity_le hzero) hpow
        rw [specSectors_zero hzero hle]
        omega
      rw [hsize, if_pos hle, ← specSectors_zero hzero hle, Nat.mod_eq_of_lt hbound]
  · have hlt := cSize_lt resp
    have hiff : resp.cSize ≠ 2 ^ 22 - 1 ↔ (resp.csdStructure = 0 ∧ 9 ≤ resp.readBlLen) ∨
        (resp.csdStructure = 1 ∧ resp.cSize ≠ 2 ^ 22 - 1) := by omega
    have hspec : specSectors resp = (resp.cSize + 1) * 1024 := by
      rw [specSectors, if_neg (by omega)]
    rw [hbits, hcap, shiftLeft?_blkbits (by norm_num) le_rfl _ (by norm_num), if_pos le_rfl]
      at hsize
    rw [← hiff]
    have hvalue : mmcBlkAllocSize true card'.blockaddr extSectors card'.csd =
        some ((resp.cSize + 1) * 1024 % 2 ^ 32) := by
      have hbound : (resp.cSize + 1) * 1024 % 2 ^ 32 < 2 ^ 64 := by omega
      rw [hsize, Nat.sub_self, pow_zero, Nat.mul_one, Nat.mod_eq_of_lt hbound]
    constructor
    · rintro ⟨hexact, -⟩
      rw [hvalue, hspec] at hexact
      have heq := Option.some.inj hexact
      omega
    · rintro hne
      refine ⟨?_, isSome_mmcInitEraseCsd g (by rw [hbits]; norm_num) hbits.ge⟩
      rw [hvalue, hspec, Nat.mod_eq_of_lt (by omega)]

end Decoded

/-- A card before it is decoded. -/
def blankSdCard : SdCard := ⟨⟨0, 0, 0, 0, 0, 0, 0, 0, 0, 0, 0, 0, 0, 0, 0⟩, false, false, 0⟩

/-- A CSD of version 1 with `C_SIZE` 7670, and one of version 0 with blocks of 256 bytes. -/
def csdSample1 : RawReg := ⟨![0x40000000, 0, 0x1DF60000, 0], by decide⟩
def csdSample0 : RawReg := ⟨![0, 0x00080000, 0, 0], by decide⟩

/-- A card of 7671 units of 512 KiB. -/
theorem mmcDecodeCsd_capacity_iff_sample :
    ∃ card', mmcDecodeCsd csdSample1 blankSdCard = .ok card' ∧
      mmcBlkAllocSize true card'.blockaddr 0 card'.csd = some (7671 * 1024) := by
  have hdecode : mmcDecodeCsd csdSample1 blankSdCard =
      .ok ⟨decodeCsd1 csdSample1 blankSdCard.csd, true, false, 1⟩ := rfl
  have hexact := (mmcDecodeCsd_capacity_iff hdecode ⟨true, 1, 0, by decide, by decide⟩ 0).mpr
    (.inr ⟨by decide, by decide⟩)
  have hspec : specSectors csdSample1 = 7671 * 1024 := by decide
  exact ⟨_, hdecode, hspec ▸ hexact.size⟩

/-- With blocks of 256 bytes, the size of the disk is shifted by a negative amount. -/
theorem mmcDecodeCsd_capacity_negative :
    ¬∀ (resp : RawReg) (card card' : SdCard) (g : EraseGeometry) (extSectors : ℕ),
      mmcDecodeCsd resp card = .ok card' → CapacityExact resp card' g extSectors := by
  rintro h
  have hdecode : mmcDecodeCsd csdSample0 blankSdCard =
      .ok ⟨decodeCsd0 csdSample0 blankSdCard.csd, false, false, 0⟩ := rfl
  have hsize := (h _ _ _ ⟨true, 0, 0, by decide, by decide⟩ 0 hdecode).size
  have hnone : mmcBlkAllocSize true false 0 (decodeCsd0 csdSample0 blankSdCard.csd) = none := by
    decide
  rw [hnone] at hsize
  cases hsize

end LinuxDriver.Mmc
