import LinuxDriver.MachineInt

/-!
# The physical partitions of an eMMC

`mmc_decode_ext_csd` adds the boot partitions, the general purpose partitions and the RPMB partition
that the EXT_CSD describes to `card->part`, with their sizes in bytes. `mmc_part_add` takes a size
as a 32-bit integer. That is enough for boot and RPMB partitions, which are multiples of 128 KiB
given by a byte, but a general purpose partition may have 4 GiB and more.

## Main definitions

* `ExtCsd`, `Part`, `mmcPartAdd`.
* `mmcManageGpPartitions`, `decodeParts`: the partitions that are added.
* `mmcBlkAllocPart`: the sectors that `mmc_blk_alloc_parts` gives a partition.
* `denotedSectors`: the sectors that the fields denote.

## Main results

* `decodeParts_eq`: the partitions in closed form; the table is never overrun.
* `decodeParts_exact_iff`: when every partition gets its sectors.
-/

namespace LinuxDriver.Mmc

/-- The bytes of the EXT_CSD. -/
structure ExtCsd where
  byte : ℕ → ℕ
  byte_lt : ∀ i, byte i < 2 ^ 8

def extCsdGpSizeMult : ℕ := 143
def extCsdPartitionSettingCompleted : ℕ := 155
def extCsdPartitionSupport : ℕ := 160
def extCsdRpmbMult : ℕ := 168
def extCsdRev : ℕ := 192
def extCsdStructure : ℕ := 194
def extCsdHcWpGrpSize : ℕ := 221
def extCsdHcEraseGrpSize : ℕ := 224
def extCsdBootMult : ℕ := 226

def extCsdPartSupportPartEn : ℕ := 0x1
def extCsdPartSettingCompleted : ℕ := 0x1
def extCsdPartConfigAccBoot0 : ℕ := 0x1
def extCsdPartConfigAccRpmb : ℕ := 0x3
def extCsdPartConfigAccGp0 : ℕ := 0x4

def mmcNumBootPartition : ℕ := 2
def mmcNumGpPartition : ℕ := 4

/-- `MMC_NUM_PHY_PARTITION`, the number of entries of `card->part`. -/
def mmcNumPhyPartition : ℕ := 7

inductive Area
  | boot
  | gp
  | rpmb
  deriving DecidableEq

/-- An entry of `card->part`. The size is in bytes. -/
structure Part where
  size : ℕ
  partCfg : ℕ
  name : String
  forceRo : Bool
  area : Area

/-- How the decoding can fail: with `-EINVAL`, or by a write behind the end of the table. -/
inductive DecodeError
  | inval
  | overrun
  deriving DecidableEq

/-- `mmc_part_add`, with the first `nr_parts` entries of the table. -/
def mmcPartAdd (parts : List Part) (part : Part) : Except DecodeError (List Part) :=
  if parts.length < mmcNumPhyPartition then
    .ok (parts ++ [{ part with size := part.size % 2 ^ 32 }])
  else .error .overrun

/-! ### The partitions -/

section Decode

variable (ext : ExtCsd)

/-- `GP_SIZE_MULT` of a general purpose partition, three bytes. -/
def ExtCsd.gpSizeMult (idx : ℕ) : ℕ :=
  (ext.byte (extCsdGpSizeMult + idx * 3 + 2) <<< 16) +
    (ext.byte (extCsdGpSizeMult + idx * 3 + 1) <<< 8) + ext.byte (extCsdGpSizeMult + idx * 3)

/-- The entry of a general purpose partition. -/
def gpPart (idx : ℕ) : Part :=
  let partSize := ext.gpSizeMult idx
  let partSize :=
    partSize * (ext.byte extCsdHcEraseGrpSize * ext.byte extCsdHcWpGrpSize) % 2 ^ 32
  ⟨partSize <<< 19 % 2 ^ 32, extCsdPartConfigAccGp0 + idx, "gp" ++ toString idx, false, .gp⟩

/-- The loop of `mmc_manage_gp_partitions`. -/
def gpLoop (completed : Bool) : List ℕ → List Part → Except DecodeError (List Part)
  | [], parts => .ok parts
  | idx :: idxs, parts =>
    if ext.byte (extCsdGpSizeMult + idx * 3) = 0 ∧ ext.byte (extCsdGpSizeMult + idx * 3 + 1) = 0 ∧
        ext.byte (extCsdGpSizeMult + idx * 3 + 2) = 0 then
      gpLoop completed idxs parts
    else if !completed then .ok parts
    else mmcPartAdd parts (gpPart ext idx) >>= gpLoop completed idxs

/-- `mmc_manage_gp_partitions` -/
def mmcManageGpPartitions (completed : Bool) (parts : List Part) :
    Except DecodeError (List Part) :=
  if ext.byte extCsdPartitionSupport &&& extCsdPartSupportPartEn ≠ 0 then
    gpLoop ext completed (List.range mmcNumGpPartition) parts
  else .ok parts

def bootPart (idx : ℕ) : Part :=
  ⟨ext.byte extCsdBootMult <<< 17, extCsdPartConfigAccBoot0 + idx, "boot" ++ toString idx, true,
    .boot⟩

/-- The loop that adds the boot partitions. -/
def bootLoop : List ℕ → List Part → Except DecodeError (List Part)
  | [], parts => .ok parts
  | idx :: idxs, parts => mmcPartAdd parts (bootPart ext idx) >>= bootLoop idxs

def rpmbPart : Part :=
  ⟨ext.byte extCsdRpmbMult <<< 17, extCsdPartConfigAccRpmb, "rpmb", false, .rpmb⟩

/-- `partition_setting_completed` -/
def ExtCsd.completed : Bool :=
  ext.byte extCsdPartitionSettingCompleted &&& extCsdPartSettingCompleted ≠ 0

/-- The boot partitions, which `mmc_decode_ext_csd` adds unless the host forbids the access. -/
def decodeBootParts (bootAccess : Bool) (parts : List Part) : Except DecodeError (List Part) :=
  if 3 ≤ ext.byte extCsdRev ∧ ext.byte extCsdBootMult ≠ 0 ∧ bootAccess then
    bootLoop ext (List.range mmcNumBootPartition) parts
  else .ok parts

def decodeGpParts (parts : List Part) : Except DecodeError (List Part) :=
  if 4 ≤ ext.byte extCsdRev then mmcManageGpPartitions ext ext.completed parts else .ok parts

/-- The RPMB partition, which it adds if the host has CMD23. -/
def decodeRpmbPart (cmd23 : Bool) (parts : List Part) : Except DecodeError (List Part) :=
  if 5 ≤ ext.byte extCsdRev ∧ ext.byte extCsdRpmbMult ≠ 0 ∧ cmd23 then
    mmcPartAdd parts (rpmbPart ext)
  else .ok parts

/-- The partitions that `mmc_decode_ext_csd` adds to the table of a card, with the CSD structure of
the card. -/
def decodeParts (bootAccess cmd23 : Bool) (csdStructure : ℕ) (parts : List Part) :
    Except DecodeError (List Part) :=
  if csdStructure = 3 ∧ 2 < ext.byte extCsdStructure then .error .inval
  else decodeBootParts ext bootAccess parts >>= decodeGpParts ext >>= decodeRpmbPart ext cmd23

/-- The sectors that `mmc_blk_alloc_parts` gives the disk or the RPMB device of a partition, if it
makes one. -/
def mmcBlkAllocPart (part : Part) : Option ℕ :=
  if part.area = .rpmb then some (part.size >>> 9)
  else if part.size ≠ 0 then some (part.size >>> 9)
  else none

/-- The sectors that the fields of the EXT_CSD denote. -/
def denotedSectors (part : Part) : ℕ :=
  match part.area with
  | .boot => ext.byte extCsdBootMult * 256
  | .gp =>
    ext.gpSizeMult (part.partCfg - extCsdPartConfigAccGp0) * ext.byte extCsdHcEraseGrpSize *
      ext.byte extCsdHcWpGrpSize * 1024
  | .rpmb => ext.byte extCsdRpmbMult * 256

/-- The partition has its sectors; without a disk it has none. -/
def PartExact (part : Part) : Prop := (mmcBlkAllocPart part).getD 0 = denotedSectors ext part

end Decode

/-! ### Adding partitions -/

theorem mmcPartAdd_of_lt {parts : List Part} (hlen : parts.length < mmcNumPhyPartition)
    {part : Part} (hsize : part.size < 2 ^ 32) : mmcPartAdd parts part = .ok (parts ++ [part]) := by
  rw [mmcPartAdd, if_pos hlen, Nat.mod_eq_of_lt hsize]

section Loops

variable (ext : ExtCsd)

/-- A byte times 128 KiB is less than 4 GiB. -/
theorem byte_shift_lt (i : ℕ) : ext.byte i <<< 17 < 2 ^ 32 := by
  have hlt := ext.byte_lt i
  rw [Nat.shiftLeft_eq]
  omega

theorem bootPart_size_lt (idx : ℕ) : (bootPart ext idx).size < 2 ^ 32 := byte_shift_lt ext _

theorem gpPart_size_lt (idx : ℕ) : (gpPart ext idx).size < 2 ^ 32 :=
  Nat.mod_lt _ (Nat.two_pow_pos 32)

theorem bootLoop_eq (idxs : List ℕ) {parts : List Part}
    (hlen : parts.length + idxs.length ≤ mmcNumPhyPartition) :
    bootLoop ext idxs parts = .ok (parts ++ idxs.map (bootPart ext)) := by
  induction idxs generalizing parts with
  | nil => rw [bootLoop, List.map_nil, List.append_nil]
  | cons idx idxs ih =>
    rw [List.length_cons] at hlen
    rw [bootLoop, mmcPartAdd_of_lt (by omega) (bootPart_size_lt ext idx)]
    change bootLoop ext idxs (parts ++ [bootPart ext idx]) = _
    rw [ih (by rw [List.length_append, List.length_singleton]; omega), List.map_cons,
      List.append_assoc, List.singleton_append]

theorem gpSizeMult_eq_zero {idx : ℕ} :
    ext.gpSizeMult idx = 0 ↔ ext.byte (extCsdGpSizeMult + idx * 3) = 0 ∧
      ext.byte (extCsdGpSizeMult + idx * 3 + 1) = 0 ∧
      ext.byte (extCsdGpSizeMult + idx * 3 + 2) = 0 := by
  rw [ExtCsd.gpSizeMult, Nat.shiftLeft_eq, Nat.shiftLeft_eq]
  omega

/-- The general purpose partitions that are there. -/
def gpPresent (idx : ℕ) : Bool := ext.gpSizeMult idx ≠ 0

theorem gpLoop_eq (completed : Bool) (idxs : List ℕ) {parts : List Part}
    (hlen : parts.length + idxs.length ≤ mmcNumPhyPartition) :
    gpLoop ext completed idxs parts =
      .ok (parts ++
        if completed then (idxs.filter (gpPresent ext)).map (gpPart ext) else []) := by
  induction idxs generalizing parts with
  | nil => rw [gpLoop, List.filter_nil, List.map_nil, ite_self, List.append_nil]
  | cons idx idxs ih =>
    rw [List.length_cons] at hlen
    simp only [gpLoop, ← gpSizeMult_eq_zero]
    by_cases hzero : ext.gpSizeMult idx = 0
    · have habsent : gpPresent ext idx = false := by simp [gpPresent, hzero]
      rw [if_pos hzero, ih (by omega), List.filter_cons_of_neg (by rw [habsent]; simp)]
    · have hpresent : gpPresent ext idx = true := by simp [gpPresent, hzero]
      rw [if_neg hzero, List.filter_cons_of_pos hpresent]
      cases completed with
      | false =>
        rw [Bool.not_false, if_pos rfl, if_neg Bool.false_ne_true, List.append_nil]
      | true =>
        rw [Bool.not_true, if_neg Bool.false_ne_true,
          mmcPartAdd_of_lt (by omega) (gpPart_size_lt ext idx)]
        change gpLoop ext true idxs (parts ++ [gpPart ext idx]) = _
        rw [ih (by rw [List.length_append, List.length_singleton]; omega), if_pos rfl, if_pos rfl,
          List.map_cons, List.append_assoc, List.singleton_append]

/-! ### The whole table -/

def bootAdded (bootAccess : Bool) : List Part :=
  if 3 ≤ ext.byte extCsdRev ∧ ext.byte extCsdBootMult ≠ 0 ∧ bootAccess then
    (List.range mmcNumBootPartition).map (bootPart ext)
  else []

/-- The general purpose partition is added. -/
def GpAdded (idx : ℕ) : Prop :=
  (4 ≤ ext.byte extCsdRev ∧ ext.byte extCsdPartitionSupport &&& extCsdPartSupportPartEn ≠ 0 ∧
    ext.completed = true) ∧ idx < mmcNumGpPartition ∧ ext.gpSizeMult idx ≠ 0

def gpAdded : List Part :=
  if 4 ≤ ext.byte extCsdRev ∧
      ext.byte extCsdPartitionSupport &&& extCsdPartSupportPartEn ≠ 0 ∧ ext.completed = true then
    ((List.range mmcNumGpPartition).filter (gpPresent ext)).map (gpPart ext)
  else []

def rpmbAdded (cmd23 : Bool) : List Part :=
  if 5 ≤ ext.byte extCsdRev ∧ ext.byte extCsdRpmbMult ≠ 0 ∧ cmd23 then [rpmbPart ext] else []

theorem length_bootAdded_le (bootAccess : Bool) : (bootAdded ext bootAccess).length ≤ 2 := by
  rw [bootAdded]
  split_ifs
  · exact le_rfl
  · exact Nat.zero_le 2

theorem length_gpAdded_le : (gpAdded ext).length ≤ 4 := by
  rw [gpAdded]
  split_ifs
  · rw [List.length_map]
    exact List.length_filter_le _ _
  · exact Nat.zero_le 4

theorem mem_gpAdded {part : Part} :
    part ∈ gpAdded ext ↔ ∃ idx, GpAdded ext idx ∧ gpPart ext idx = part := by
  rw [gpAdded]
  split_ifs with hadded
  · simp [GpAdded, hadded, gpPresent, and_assoc]
  · simp [GpAdded, hadded]

theorem decodeBootParts_eq (bootAccess : Bool) :
    decodeBootParts ext bootAccess [] = .ok (bootAdded ext bootAccess) := by
  rw [decodeBootParts, bootAdded]
  split_ifs
  · exact bootLoop_eq ext _ (by decide)
  · rfl

theorem decodeGpParts_eq {parts : List Part} (hlen : parts.length ≤ 2) :
    decodeGpParts ext parts = .ok (parts ++ gpAdded ext) := by
  have hroom : parts.length + (List.range mmcNumGpPartition).length ≤ mmcNumPhyPartition := by
    rw [List.length_range, mmcNumGpPartition, mmcNumPhyPartition]
    omega
  have hloop := gpLoop_eq ext ext.completed (List.range mmcNumGpPartition) hroom
  rw [decodeGpParts, gpAdded, mmcManageGpPartitions, hloop]
  split_ifs <;> simp_all

theorem decodeRpmbPart_eq (cmd23 : Bool) {parts : List Part}
    (hlen : parts.length < mmcNumPhyPartition) :
    decodeRpmbPart ext cmd23 parts = .ok (parts ++ rpmbAdded ext cmd23) := by
  rw [decodeRpmbPart, rpmbAdded]
  split_ifs
  · exact mmcPartAdd_of_lt hlen (byte_shift_lt ext extCsdRpmbMult)
  · rw [List.append_nil]

theorem length_added_lt (bootAccess : Bool) :
    (bootAdded ext bootAccess ++ gpAdded ext).length < mmcNumPhyPartition := by
  have hle := Nat.add_le_add (length_bootAdded_le ext bootAccess) (length_gpAdded_le ext)
  rw [List.length_append]
  exact Nat.lt_of_le_of_lt hle (by decide)

/-- **The table.** The decoding adds these partitions, and never writes behind the end. -/
theorem decodeParts_eq (bootAccess cmd23 : Bool) (csdStructure : ℕ) :
    decodeParts ext bootAccess cmd23 csdStructure [] =
      if csdStructure = 3 ∧ 2 < ext.byte extCsdStructure then .error .inval
      else .ok (bootAdded ext bootAccess ++ gpAdded ext ++ rpmbAdded ext cmd23) := by
  rw [decodeParts, decodeBootParts_eq]
  change (if _ then _ else decodeGpParts ext (bootAdded ext bootAccess) >>= _) = _
  rw [decodeGpParts_eq ext (length_bootAdded_le ext bootAccess)]
  change (if _ then _ else decodeRpmbPart ext cmd23 (bootAdded ext bootAccess ++ gpAdded ext)) = _
  rw [decodeRpmbPart_eq ext cmd23 (length_added_lt ext bootAccess)]

/-! ### Sizes -/

theorem getD_mmcBlkAllocPart (part : Part) :
    (mmcBlkAllocPart part).getD 0 = part.size >>> 9 := by
  rw [mmcBlkAllocPart]
  split_ifs with hrpmb hsize
  · rfl
  · rfl
  · rw [not_not.mp hsize]
    rfl

/-- Multiples of 128 KiB in bytes, and in sectors. -/
theorem shift_17_9 (n : ℕ) : n <<< 17 >>> 9 = n * 256 := by
  rw [Nat.shiftLeft_eq, Nat.shiftRight_eq_div_pow]
  omega

theorem bootPart_exact (idx : ℕ) : PartExact ext (bootPart ext idx) := by
  rw [PartExact, getD_mmcBlkAllocPart]
  exact shift_17_9 _

theorem rpmbPart_exact : PartExact ext (rpmbPart ext) := by
  rw [PartExact, getD_mmcBlkAllocPart]
  exact shift_17_9 _

/-- The units of 512 KiB of a general purpose partition. -/
def gpUnits (idx : ℕ) : ℕ :=
  ext.gpSizeMult idx * ext.byte extCsdHcEraseGrpSize * ext.byte extCsdHcWpGrpSize

/-- A general purpose partition gets its sectors if it has less than 4 GiB. -/
theorem gpPart_exact_iff (idx : ℕ) : PartExact ext (gpPart ext idx) ↔ gpUnits ext idx < 2 ^ 13 := by
  have hsize : (gpPart ext idx).size = (gpUnits ext idx % 2 ^ 32) <<< 19 % 2 ^ 32 := by
    simp only [gpPart, gpUnits, Nat.mul_assoc]
  have hdenoted : denotedSectors ext (gpPart ext idx) = gpUnits ext idx * 1024 := by
    simp only [denotedSectors, gpPart, gpUnits, Nat.add_sub_cancel_left]
  rw [PartExact, getD_mmcBlkAllocPart, hsize, hdenoted, Nat.shiftLeft_eq,
    Nat.shiftRight_eq_div_pow]
  omega

/-- **The sizes.** The table is never overrun, and every partition gets its sectors if and only if
every general purpose partition that is added has less than 4 GiB. -/
theorem decodeParts_exact_iff (bootAccess cmd23 : Bool) (csdStructure : ℕ) :
    decodeParts ext bootAccess cmd23 csdStructure [] ≠ .error .overrun ∧
      ∀ parts, decodeParts ext bootAccess cmd23 csdStructure [] = .ok parts →
        parts.length ≤ mmcNumPhyPartition ∧
          ((∀ part ∈ parts, PartExact ext part) ↔
            ∀ idx, GpAdded ext idx → gpUnits ext idx < 2 ^ 13) := by
  rw [decodeParts_eq]
  split_ifs with hinval
  · refine ⟨fun herr => (by cases herr), fun parts hparts => ?_⟩
    cases hparts
  · refine ⟨fun herr => (by cases herr), fun parts hparts => ?_⟩
    obtain rfl := Except.ok.inj hparts
    have hrpmb : (rpmbAdded ext cmd23).length ≤ 1 := by
      rw [rpmbAdded]
      split_ifs
      · exact le_rfl
      · exact Nat.zero_le 1
    have hlen := length_added_lt ext bootAccess
    refine ⟨?_, fun h idx hidx => ?_, fun h part hpart => ?_⟩
    · rw [List.length_append]
      omega
    · refine (gpPart_exact_iff ext idx).mp (h _ ?_)
      have hadded := (mem_gpAdded ext).mpr ⟨idx, hidx, rfl⟩
      exact List.mem_append_left _ (List.mem_append_right _ hadded)
    · rcases List.mem_append.mp hpart with hpart | hpart
      · rcases List.mem_append.mp hpart with hpart | hpart
        · rw [bootAdded] at hpart
          split_ifs at hpart
          · obtain ⟨idx, -, rfl⟩ := List.mem_map.mp hpart
            exact bootPart_exact ext idx
          · cases hpart
        · obtain ⟨idx, hidx, rfl⟩ := (mem_gpAdded ext).mp hpart
          exact (gpPart_exact_iff ext idx).mpr (h idx hidx)
      · rw [rpmbAdded] at hpart
        split_ifs at hpart
        · obtain rfl := List.mem_singleton.mp hpart
          exact rpmbPart_exact ext
        · cases hpart

end Loops

/-- An EXT_CSD with one general purpose partition of 512 write protect groups of 8 MiB each. -/
def gpSampleExtCsd : ExtCsd where
  byte i :=
    if i = extCsdRev then 8
    else if i = extCsdPartitionSupport ∨ i = extCsdPartitionSettingCompleted then 1
    else if i = extCsdHcEraseGrpSize then 1
    else if i = extCsdHcWpGrpSize then 16
    else if i = extCsdGpSizeMult + 1 then 2
    else 0
  byte_lt i := by split_ifs <;> norm_num

/-- The partition has 4 GiB, and gets no disk. -/
theorem decodeParts_lost :
    ¬∀ (ext : ExtCsd) (bootAccess cmd23 : Bool) (csdStructure : ℕ) (parts : List Part),
      decodeParts ext bootAccess cmd23 csdStructure [] = .ok parts →
        parts.length ≤ mmcNumPhyPartition ∧ ∀ part ∈ parts, PartExact ext part := by
  rintro h
  have hdecode : decodeParts gpSampleExtCsd true true 2 [] = .ok [gpPart gpSampleExtCsd 0] :=
    rfl
  have hexact := (h _ _ _ _ _ hdecode).2 _ (List.mem_singleton_self _)
  exact absurd hexact (by unfold PartExact; decide)

end LinuxDriver.Mmc
