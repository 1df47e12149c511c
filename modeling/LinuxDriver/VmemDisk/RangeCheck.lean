import LinuxDriver.VmemDisk.Transfer

/-!
# The range check of the memory disk

`vmem_disk_transfer` of `rasp-driver/blkdev/blkdev.c` computes the offset, the length and their sum
in `unsigned long` before it compares the sum with `dev->size`. A sum that wraps may come out below
the size although the range is beyond the end, and then the copy is made.

## Main definitions

* `transferOfSize`: `vmem_disk_transfer` for a device of any size.
* `rangeEnd`: the exact end of the range that a transfer is called for.
* `RangeChecked`: a copy is made only inside the device, and of exactly the range asked for.

## Main results

* `rangeChecked_iff`: the check is right exactly when no sector is asked for, the end of the range
  does not wrap, or it wraps to a value above the size.
-/

namespace LinuxDriver

/-- The bytes of `dev->data` that a copy reads or writes. -/
def Memcpy.bytes (t : Memcpy) : Set ℕ := Set.Ico t.offset (t.offset + t.nbytes)

namespace VmemDisk

/-- `vmem_disk_transfer` on a device with `dev->size` bytes, where `unsigned long` has `w` bits. -/
def transferOfSize (w size sector nsect buffer : ℕ) (dir : DataDir) : Option Memcpy :=
  let offset := sectorBytes w sector
  let nbytes := sectorBytes w nsect
  if size < (offset + nbytes) % 2 ^ w then none else some ⟨offset, nbytes, buffer, dir⟩

/-- The transfers of the device that `setup_device` makes. -/
theorem vmemDiskTransfer_eq_transferOfSize (w sector nsect buffer : ℕ) (dir : DataDir) :
    vmemDiskTransfer w sector nsect buffer dir =
      transferOfSize w vmemDiskSize sector nsect buffer dir := rfl

/-- The end of `nsect` sectors from `sector` on, in bytes and exact. -/
def rangeEnd (sector nsect : ℕ) : ℕ := hardsectSize * (sector + nsect)

/-- The bytes that a transfer is called for. -/
def rangeBytes (sector nsect : ℕ) : Set ℕ :=
  Set.Ico (hardsectSize * sector) (rangeEnd sector nsect)

/-- If a copy is made, then the range asked for is inside the device, and it is what the copy
accesses. -/
def RangeChecked (w size sector nsect buffer : ℕ) (dir : DataDir) : Prop :=
  ∀ t, transferOfSize w size sector nsect buffer dir = some t →
    rangeBytes sector nsect ⊆ Set.Ico 0 size ∧ t.bytes = rangeBytes sector nsect

variable {w size sector nsect buffer : ℕ} {dir : DataDir}

theorem sectorBytes_eq_mod (w sector : ℕ) :
    sectorBytes w sector = hardsectSize * sector % 2 ^ w := by
  rw [sectorBytes, Nat.mod_mul_mod, Nat.mul_comm]
  rfl

/-- The sum that the check compares with the size is the exact end, wrapped. -/
theorem sectorBytes_add_mod (w sector nsect : ℕ) :
    (sectorBytes w sector + sectorBytes w nsect) % 2 ^ w = rangeEnd sector nsect % 2 ^ w := by
  rw [sectorBytes_eq_mod, sectorBytes_eq_mod, ← Nat.add_mod, ← Nat.mul_add]
  rfl

/-- The copy is made exactly when the wrapped end is at most the size. -/
theorem transferOfSize_eq_some_iff {t : Memcpy} :
    transferOfSize w size sector nsect buffer dir = some t ↔
      rangeEnd sector nsect % 2 ^ w ≤ size ∧
        t = ⟨sectorBytes w sector, sectorBytes w nsect, buffer, dir⟩ := by
  simp only [transferOfSize, sectorBytes_add_mod]
  by_cases hend : size < rangeEnd sector nsect % 2 ^ w
  · rw [if_pos hend]
    simp [hend]
  · rw [if_neg hend]
    simp [not_lt.mp hend, eq_comm]

/-- A range whose end does not wrap is copied as asked for. -/
theorem bytes_of_rangeEnd_lt (h : rangeEnd sector nsect < 2 ^ w) :
    (⟨sectorBytes w sector, sectorBytes w nsect, buffer, dir⟩ : Memcpy).bytes =
      rangeBytes sector nsect := by
  have hsplit : rangeEnd sector nsect = hardsectSize * sector + hardsectSize * nsect :=
    Nat.mul_add _ _ _
  have hoffset : sectorBytes w sector = hardsectSize * sector := by
    rw [sectorBytes_eq_mod, Nat.mod_eq_of_lt (by omega)]
  have hnbytes : sectorBytes w nsect = hardsectSize * nsect := by
    rw [sectorBytes_eq_mod, Nat.mod_eq_of_lt (by omega)]
  simp only [Memcpy.bytes, rangeBytes, hoffset, hnbytes, hsplit]

/-- No byte is copied for no sector. -/
theorem rangeChecked_of_nsect_eq_zero (w size sector buffer : ℕ) (dir : DataDir) :
    RangeChecked w size sector 0 buffer dir := by
  intro t ht
  obtain ⟨-, rfl⟩ := transferOfSize_eq_some_iff.mp ht
  have hrange : rangeBytes sector 0 = ∅ := Set.Ico_self _
  have hnbytes : sectorBytes w 0 = 0 := by rw [sectorBytes_eq_mod, Nat.mul_zero, Nat.zero_mod]
  refine ⟨hrange ▸ Set.empty_subset _, ?_⟩
  rw [hrange, Memcpy.bytes, hnbytes]
  exact Set.Ico_self _

/-- A range of some sectors lies inside the device exactly when its end does. -/
theorem rangeBytes_subset_iff (hpos : 0 < nsect) :
    rangeBytes sector nsect ⊆ Set.Ico 0 size ↔ rangeEnd sector nsect ≤ size := by
  have hlt : hardsectSize * sector < rangeEnd sector nsect :=
    Nat.mul_lt_mul_of_pos_left (by omega) (by decide)
  rw [rangeBytes, Set.Ico_subset_Ico_iff hlt]
  exact and_iff_right (Nat.zero_le _)

end VmemDisk

open VmemDisk

/-- **The range check.** -/
theorem rangeChecked_iff {w size : ℕ} (hw : w = 32 ∨ w = 64) (hsize : size < 2 ^ 31)
    (sector nsect buffer : ℕ) (dir : DataDir) :
    RangeChecked w size sector nsect buffer dir ↔
      nsect = 0 ∨ rangeEnd sector nsect < 2 ^ w ∨ size < rangeEnd sector nsect % 2 ^ w := by
  have hword : (2 : ℕ) ^ 31 < 2 ^ w := Nat.pow_lt_pow_right (by norm_num) (by omega)
  constructor
  · intro h
    by_contra hnot
    simp only [not_or, not_lt] at hnot
    obtain ⟨hpos, hwrap, hmade⟩ := hnot
    obtain ⟨hinside, -⟩ := h _ (transferOfSize_eq_some_iff.mpr ⟨hmade, rfl⟩)
    have hend := (rangeBytes_subset_iff (Nat.pos_of_ne_zero hpos)).mp hinside
    omega
  · rintro (rfl | hexact | hrefused)
    · exact rangeChecked_of_nsect_eq_zero w size sector buffer dir
    · intro t ht
      obtain ⟨hmade, rfl⟩ := transferOfSize_eq_some_iff.mp ht
      rw [Nat.mod_eq_of_lt hexact] at hmade
      exact ⟨Set.Ico_subset_Ico (Nat.zero_le _) hmade, bytes_of_rangeEnd_lt hexact⟩
    · intro t ht
      obtain ⟨hmade, -⟩ := transferOfSize_eq_some_iff.mp ht
      exact absurd hmade (not_le.mpr hrefused)

theorem rangeChecked_iff_last_sector :
    RangeChecked 32 vmemDiskSize 1023 1 0 .write ↔
      1 = 0 ∨ rangeEnd 1023 1 < 2 ^ 32 ∨ vmemDiskSize < rangeEnd 1023 1 % 2 ^ 32 :=
  rangeChecked_iff (.inl rfl) (by decide) 1023 1 0 .write

/-- **A wrapped end.** The byte offset of sector `2 ^ 55` wraps to zero in 64 bits, and the write is
made at the start of the device. -/
theorem vmemDiskTransfer_wrapped :
    vmemDiskTransfer 64 (2 ^ 55) 1 0 .write = some ⟨0, 512, 0, .write⟩ ∧
    ¬RangeChecked 64 vmemDiskSize (2 ^ 55) 1 0 .write := by
  have hmade : transferOfSize 64 vmemDiskSize (2 ^ 55) 1 0 .write = some ⟨0, 512, 0, .write⟩ := by
    decide +kernel
  refine ⟨hmade, fun h => ?_⟩
  have hend := (rangeBytes_subset_iff one_pos).mp (h _ hmade).1
  exact absurd hend (by decide +kernel)

end LinuxDriver
