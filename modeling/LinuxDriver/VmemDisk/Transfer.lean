import LinuxDriver.Kernel
import LinuxDriver.VectoredIo

/-!
# Transfers of the memory disk

`vmem_disk_xfer_bio` of `rasp-driver/blkdev/blkdev.c` goes through the segments of a bio and hands
each to `vmem_disk_transfer`, which copies it to or from the array `dev->data`, or does nothing if
the range is beyond the end. The length of every segment is taken to be `bio_cur_bytes(bio)`, which
is the length of the first one, and the running sector grows by it.

The specification of a bio treats `dev->data` as one array of bytes: a write stores the bytes of
all its segments from the first byte of its sector on, and a read fills its segments from there.

## Main definitions

* `Bio`, `Bio.curBytes`, `Memcpy`, `Disk`.
* `beyondEnd`, `vmemDiskTransfer`, `vmemDiskXferBio`: the copies that the code makes.
* `Bio.reference`, `Bio.spec`: the copies it should make, and their purpose.
* `VmemDisk.StorageLaw`.

## Main results

* `vmemDiskXferBio_eq_reference_iff`: the copies are right exactly when the segments of the bio have
  one length.
* `vmemDisk_storageLaw_iff`: the same for histories of bios.
-/

namespace LinuxDriver

/-! ### The disk -/

/-- `HARDSECT_SIZE` -/
def hardsectSize : ℕ := 512

/-- `KERNEL_SECTOR_SIZE` -/
def kernelSectorSize : ℕ := 512

/-- `NSECTORS` -/
def nsectors : ℕ := 1024

/-- `dev->size`, as `setup_device` sets it. -/
def vmemDiskSize : ℕ := nsectors * hardsectSize

/-- A bio: the sector in `bi_iter`, the direction `bio_data_dir(bio)`, and the segments. -/
structure Bio where
  sector : ℕ
  dir : DataDir
  segments : List Segment

/-- `bio_cur_bytes(bio)`: the length of the segment at `bi_iter`, which is the first one. -/
def Bio.curBytes (b : Bio) : ℕ :=
  match b.segments with
  | [] => 0
  | seg :: _ => seg.len

/-- The array `dev->data` and the memory of the host. -/
@[ext] structure Disk where
  data : Buffer UInt8
  mem : Buffer UInt8

/-- One `memcpy` between `dev->data + offset` and `buffer`. -/
structure Memcpy where
  offset : ℕ
  nbytes : ℕ
  buffer : ℕ
  dir : DataDir
  deriving DecidableEq

/-- The disk after a copy. -/
def Disk.memcpy (s : Disk) (t : Memcpy) : Disk :=
  match t.dir with
  | .write => { s with data := s.data.store t.offset (s.mem.load t.buffer t.nbytes) }
  | .read => { s with mem := s.mem.store t.buffer (s.data.load t.offset t.nbytes) }

/-- The disk after some copies. -/
def Disk.exec (s : Disk) (ts : List Memcpy) : Disk := ts.foldl Disk.memcpy s

/-- `sector * KERNEL_SECTOR_SIZE`, where `unsigned long` has `w` bits. -/
def sectorBytes (w sector : ℕ) : ℕ := sector % 2 ^ w * kernelSectorSize % 2 ^ w

/-- The check of `vmem_disk_transfer`. -/
def beyondEnd (w sector nsect : ℕ) : Prop :=
  vmemDiskSize < (sectorBytes w sector + sectorBytes w nsect) % 2 ^ w

instance (w sector nsect : ℕ) : Decidable (beyondEnd w sector nsect) :=
  inferInstanceAs (Decidable (_ < _))

/-- `vmem_disk_transfer`: the copy that it makes, if the range is not beyond the end. -/
def vmemDiskTransfer (w sector nsect buffer : ℕ) (dir : DataDir) : Option Memcpy :=
  if beyondEnd w sector nsect then none
  else some ⟨sectorBytes w sector, sectorBytes w nsect, buffer, dir⟩

/-- The loop of `vmem_disk_xfer_bio`: the calls of `vmem_disk_transfer` from a running sector on. -/
def xferSegments (w : ℕ) (b : Bio) : ℕ → List Segment → List (Option Memcpy)
  | _, [] => []
  | sector, seg :: segs =>
    vmemDiskTransfer w sector (b.curBytes / hardsectSize) seg.addr b.dir ::
      xferSegments w b ((sector + b.curBytes / hardsectSize) % 2 ^ 64) segs

/-- `vmem_disk_xfer_bio`: what its calls of `vmem_disk_transfer` do, and the value it returns. -/
def vmemDiskXferBio (w : ℕ) (b : Bio) : List (Option Memcpy) × ℤ :=
  (xferSegments w b b.sector b.segments, 0)

/-- The disk after `vmem_disk_xfer_bio`. -/
def Disk.xferBio (w : ℕ) (s : Disk) (b : Bio) : Disk :=
  s.exec (vmemDiskXferBio w b).1.reduceOption

/-- The disk after `vmem_disk_xfer_bio` of some bios. -/
def Disk.xferBios (w : ℕ) (s : Disk) (bios : List Bio) : Disk := bios.foldl (Disk.xferBio w) s

/-! ### The specification -/

namespace Bio

variable (b : Bio)

/-- The first byte of the bio on the device. -/
def start : ℕ := hardsectSize * b.sector

/-- The bio lies wholly inside the device, and its segments are whole sectors. -/
structure Inside : Prop where
  sectors : ∀ seg ∈ b.segments, hardsectSize ∣ seg.len
  le_size : b.start + totalLen b.segments ≤ vmemDiskSize

/-- All segments have the length of the first. -/
def Uniform : Prop := ∀ seg ∈ b.segments, seg.len = b.curBytes

instance : Decidable b.Uniform := inferInstanceAs (Decidable (∀ seg ∈ _, _))

/-- The copies of the segments, each for its own length and behind the one before. -/
def referenceFrom (dir : DataDir) : ℕ → List Segment → List Memcpy
  | _, [] => []
  | off, seg :: segs => ⟨off, seg.len, seg.addr, dir⟩ :: referenceFrom dir (off + seg.len) segs

/-- The copies that a bio asks for. -/
def reference : List Memcpy := referenceFrom b.dir b.start b.segments

/-- The purpose of a bio: a write stores the bytes of its segments from its first byte on, a read
fills its segments from there. -/
def spec (s : Disk) : Disk :=
  match b.dir with
  | .write => { s with data := s.data.store b.start (s.mem.gather b.segments) }
  | .read =>
    { s with mem := s.mem.scatter b.segments (s.data.load b.start (totalLen b.segments)) }

/-- Segment `i` is copied at the offset of the bio plus the lengths of the segments before it, for
its own length. -/
theorem getElem?_reference (i : ℕ) :
    b.reference[i]? = b.segments[i]?.map fun seg =>
      ⟨b.start + totalLen (b.segments.take i), seg.len, seg.addr, b.dir⟩ := by
  have hfrom : ∀ (off i : ℕ) (segs : List Segment), (referenceFrom b.dir off segs)[i]? =
      segs[i]?.map fun seg => ⟨off + totalLen (segs.take i), seg.len, seg.addr, b.dir⟩ := by
    intro off i segs
    induction segs generalizing off i with
    | nil => simp [referenceFrom]
    | cons seg segs ih =>
      cases i with
      | zero => simp [referenceFrom]
      | succ i => simp [referenceFrom, ih, Nat.add_assoc]
  exact hfrom b.start i b.segments

/-- The copies a bio asks for have its purpose. -/
theorem exec_reference (s : Disk) : s.exec b.reference = b.spec s := by
  have hfrom : ∀ (segs : List Segment) (s : Disk) (off : ℕ),
      s.exec (referenceFrom b.dir off segs) = match b.dir with
        | .write => { s with data := s.data.storeEach s.mem off segs }
        | .read => { s with mem := s.mem.fillEach s.data off segs } := by
    intro segs
    induction segs with
    | nil => intro s off; cases b.dir <;> rfl
    | cons seg segs ih =>
      intro s off
      rw [referenceFrom, Disk.exec, List.foldl_cons, ← Disk.exec, ih]
      cases b.dir <;> rfl
  rw [reference, hfrom, spec]
  cases b.dir with
  | write => simp only [Buffer.storeEach_eq]
  | read => simp only [Buffer.fillEach_eq]

end Bio

namespace VmemDisk

variable {w : ℕ} {b : Bio}

/-! ### The copies of one bio -/

theorem size_lt_word (hw : 32 ≤ w) : vmemDiskSize < 2 ^ w :=
  (by decide : vmemDiskSize < 2 ^ 32).trans_le (Nat.pow_le_pow_right (by norm_num) hw)

/-- The first segment is whole sectors, and no longer than the device. -/
theorem curBytes_of_inside (hb : b.Inside) :
    hardsectSize ∣ b.curBytes ∧ b.curBytes ≤ vmemDiskSize := by
  obtain ⟨hsectors, hle⟩ := hb
  cases hsegs : b.segments with
  | nil => simp [Bio.curBytes, hsegs]
  | cons seg segs =>
    have hcur : b.curBytes = seg.len := by simp [Bio.curBytes, hsegs]
    rw [hsegs] at hsectors hle
    rw [totalLen_cons] at hle
    rw [hcur]
    exact ⟨hsectors seg List.mem_cons_self, by omega⟩

theorem sectorBytes_of_le (hw : 32 ≤ w) {sector : ℕ} (h : hardsectSize * sector ≤ vmemDiskSize) :
    sectorBytes w sector = hardsectSize * sector := by
  have hsize := size_lt_word hw
  simp only [hardsectSize] at h ⊢
  rw [sectorBytes, kernelSectorSize, Nat.mod_eq_of_lt (by omega : sector < 2 ^ w), Nat.mul_comm,
    Nat.mod_eq_of_lt (by omega)]

/-- A transfer of whole sectors inside the device is made as asked for. -/
theorem vmemDiskTransfer_of_le (hw : 32 ≤ w) {sector n : ℕ} (buffer : ℕ) (dir : DataDir)
    (hn : hardsectSize ∣ n) (hle : hardsectSize * sector + n ≤ vmemDiskSize) :
    vmemDiskTransfer w sector (n / hardsectSize) buffer dir =
      some ⟨hardsectSize * sector, n, buffer, dir⟩ := by
  obtain ⟨k, rfl⟩ := hn
  have hsize := size_lt_word hw
  rw [Nat.mul_div_cancel_left k (by decide : 0 < hardsectSize)]
  have hoffset : sectorBytes w sector = hardsectSize * sector := sectorBytes_of_le hw (by omega)
  have hnbytes : sectorBytes w k = hardsectSize * k := sectorBytes_of_le hw (by omega)
  have hend : ¬beyondEnd w sector k := by
    rw [beyondEnd, hoffset, hnbytes, Nat.mod_eq_of_lt (by omega)]
    omega
  rw [vmemDiskTransfer, if_neg hend, hoffset, hnbytes]

/-- A transfer that is made is for the length it was called with. -/
theorem nbytes_of_transfer (hw : 32 ≤ w) {sector n buffer : ℕ} {dir : DataDir} {t : Memcpy}
    (hn : hardsectSize ∣ n) (hle : n ≤ vmemDiskSize)
    (h : vmemDiskTransfer w sector (n / hardsectSize) buffer dir = some t) : t.nbytes = n := by
  obtain ⟨k, rfl⟩ := hn
  rw [Nat.mul_div_cancel_left k (by decide : 0 < hardsectSize)] at h
  simp only [vmemDiskTransfer, Option.ite_none_left_eq_some, Option.some.injEq] at h
  obtain ⟨-, rfl⟩ := h
  exact sectorBytes_of_le hw hle

/-- From any running sector on: if the segments have the length of the first one, every copy is the
one asked for. -/
theorem xferSegments_of_uniform (hw : 32 ≤ w) (hcur : hardsectSize ∣ b.curBytes) {sector : ℕ}
    {segs : List Segment} (hlen : ∀ seg ∈ segs, seg.len = b.curBytes)
    (hle : hardsectSize * sector + totalLen segs ≤ vmemDiskSize) :
    xferSegments w b sector segs =
      (Bio.referenceFrom b.dir (hardsectSize * sector) segs).map some := by
  induction segs generalizing sector with
  | nil => rfl
  | cons seg segs ih =>
    have hseg : seg.len = b.curBytes := hlen seg List.mem_cons_self
    rw [totalLen_cons, hseg] at hle
    have hstep : hardsectSize * (sector + b.curBytes / hardsectSize) =
        hardsectSize * sector + b.curBytes := by
      rw [Nat.mul_add, Nat.mul_div_cancel' hcur]
    have hsector : (sector + b.curBytes / hardsectSize) % 2 ^ 64 =
        sector + b.curBytes / hardsectSize := by
      refine Nat.mod_eq_of_lt ?_
      simp only [hardsectSize, vmemDiskSize, nsectors] at hstep hle ⊢
      omega
    rw [xferSegments, hsector, Bio.referenceFrom, List.map_cons, hseg,
      vmemDiskTransfer_of_le hw _ _ hcur (by omega),
      ih (fun seg h => hlen seg (List.mem_cons_of_mem _ h)) (by omega), hstep]

/-- From any running sector on: if every copy is the one asked for, the segments have the length of
the first one. -/
theorem len_of_xferSegments (hw : 32 ≤ w) (hcur : hardsectSize ∣ b.curBytes)
    (hle : b.curBytes ≤ vmemDiskSize) {sector off : ℕ} {segs : List Segment}
    (h : xferSegments w b sector segs = (Bio.referenceFrom b.dir off segs).map some) :
    ∀ seg ∈ segs, seg.len = b.curBytes := by
  induction segs generalizing sector off with
  | nil => exact fun seg hseg => absurd hseg List.not_mem_nil
  | cons seg segs ih =>
    obtain ⟨hhead, htail⟩ := List.cons.inj h
    intro seg' hseg'
    obtain rfl | hseg' := List.mem_cons.mp hseg'
    · exact nbytes_of_transfer hw hcur hle hhead
    · exact ih htail seg' hseg'

end VmemDisk

open VmemDisk

/-- **The copies of a bio.** Inside the device, the segments of a bio are copied as the bio asks
for exactly when all of them have the length of the first. -/
theorem vmemDiskXferBio_eq_reference_iff {w : ℕ} (hw : 32 ≤ w) {b : Bio} (hb : b.Inside) :
    (vmemDiskXferBio w b).1 = b.reference.map some ↔ b.Uniform := by
  obtain ⟨hcur, hle⟩ := curBytes_of_inside hb
  constructor
  · intro h
    exact len_of_xferSegments hw hcur hle h
  · intro h
    exact xferSegments_of_uniform hw hcur h hb.le_size

/-- The disk after a bio whose segments have one length. -/
theorem Disk.xferBio_of_uniform {w : ℕ} (hw : 32 ≤ w) {b : Bio} (hb : b.Inside) (hu : b.Uniform)
    (s : Disk) : s.xferBio w b = b.spec s := by
  have hcopies := (vmemDiskXferBio_eq_reference_iff hw hb).mpr hu
  have hmade : (b.reference.map some).reduceOption = b.reference := by
    simp [List.reduceOption, List.filterMap_map]
  rw [Disk.xferBio, hcopies, hmade, b.exec_reference]

/-! ### Histories of bios -/

/-- The disk after the purposes of some bios. -/
def Disk.specBios (s : Disk) (bios : List Bio) : Disk := bios.foldl (fun s b => b.spec s) s

namespace Bio

/-- The byte is one of those that a bio is about. -/
def Covers (b : Bio) (p : ℕ) : Prop := b.start ≤ p ∧ p < b.start + totalLen b.segments

/-- The two bios are about different bytes. -/
def Apart (b c : Bio) : Prop := ∀ p, b.Covers p → ¬c.Covers p

/-- A read changes no byte of the device, and a write none that it does not cover. -/
theorem data_spec_of_not_covers {b : Bio} {p : ℕ} (h : b.dir = .write → ¬b.Covers p) (s : Disk) :
    (b.spec s).data p = s.data p := by
  cases hdir : b.dir with
  | read => simp [spec, hdir]
  | write =>
    have hout := h hdir
    simp only [spec, hdir]
    by_cases hp : p < b.start
    · exact Buffer.store_apply_of_lt _ _ hp
    · refine Buffer.store_apply_of_le _ _ ?_
      rw [Buffer.length_gather]
      by_contra hlt
      exact hout ⟨by omega, by omega⟩

end Bio

/-- The bytes of the device that no write covers are left alone. -/
theorem Disk.data_specBios {bios : List Bio} {p : ℕ}
    (h : ∀ b ∈ bios, b.dir = .write → ¬b.Covers p) (s : Disk) :
    (s.specBios bios).data p = s.data p := by
  induction bios generalizing s with
  | nil => rfl
  | cons b bios ih =>
    have hrest := ih (fun c hc => h c (List.mem_cons_of_mem b hc)) (b.spec s)
    exact hrest.trans (Bio.data_spec_of_not_covers (h b List.mem_cons_self) s)

/-- After a write, and other bios that write elsewhere, the device holds the bytes written. -/
theorem Disk.load_specBios {wr : Bio} {mid : List Bio} (hwr : wr.dir = .write)
    (hmid : ∀ c ∈ mid, c.dir = .write → wr.Apart c) (s : Disk) :
    ((wr.spec s).specBios mid).data.load wr.start (totalLen wr.segments) =
      s.mem.gather wr.segments := by
  have hkept : ((wr.spec s).specBios mid).data.load wr.start (totalLen wr.segments) =
      (wr.spec s).data.load wr.start (totalLen wr.segments) := by
    refine Buffer.load_congr fun i hi => Disk.data_specBios (fun c hc hdir => ?_) _
    exact hmid c hc hdir _ ⟨by omega, by omega⟩
  have hself := Buffer.load_store_self s.data wr.start (s.mem.gather wr.segments)
  rw [Buffer.length_gather] at hself
  rw [hkept, Bio.spec, hwr]
  exact hself

/-- The disk after bios whose segments have one length each. -/
theorem Disk.xferBios_of_uniform {w : ℕ} (hw : 32 ≤ w) {bios : List Bio}
    (hb : ∀ b ∈ bios, b.Inside ∧ b.Uniform) (s : Disk) : s.xferBios w bios = s.specBios bios := by
  induction bios generalizing s with
  | nil => rfl
  | cons b bios ih =>
    obtain ⟨hinside, huniform⟩ := hb b List.mem_cons_self
    have hrest := ih (fun c hc => hb c (List.mem_cons_of_mem b hc)) (s.xferBio w b)
    rw [Disk.xferBio_of_uniform hw hinside huniform] at hrest
    rw [Disk.xferBios, List.foldl_cons, Disk.xferBio_of_uniform hw hinside huniform]
    exact hrest

namespace VmemDisk

/-- The storage law of a history of bios: each segment is copied where and as far as its bio asks
for; the disk is the one of the purposes of the bios; the bytes that no write covers are left
alone; and a read of the sectors of an earlier write gets the bytes of the last write to them. -/
structure StorageLaw (w : ℕ) (bios : List Bio) (s : Disk) : Prop where
  copies : ∀ b ∈ bios, (vmemDiskXferBio w b).1 = b.reference.map some
  array : s.xferBios w bios = s.specBios bios
  untouched : ∀ p, (∀ b ∈ bios, b.dir = .write → ¬b.Covers p) →
    (s.xferBios w bios).data p = s.data p
  returned : ∀ pre wr mid rd post, bios = pre ++ wr :: (mid ++ rd :: post) →
    wr.dir = .write → rd.dir = .read → rd.sector = wr.sector →
    totalLen rd.segments = totalLen wr.segments → (∀ c ∈ mid, c.dir = .write → wr.Apart c) →
    (s.xferBios w (pre ++ wr :: (mid ++ [rd]))).mem =
      (s.xferBios w (pre ++ wr :: mid)).mem.scatter rd.segments
        ((s.xferBios w pre).mem.gather wr.segments)

theorem storageLaw_of_uniform {w : ℕ} (hw : 32 ≤ w) {bios : List Bio}
    (hinside : ∀ b ∈ bios, b.Inside) (hu : ∀ b ∈ bios, b.Uniform) (s : Disk) :
    StorageLaw w bios s where
  copies b hb := (vmemDiskXferBio_eq_reference_iff hw (hinside b hb)).mpr (hu b hb)
  array := Disk.xferBios_of_uniform hw (fun b hb => ⟨hinside b hb, hu b hb⟩) s
  untouched p hp := by
    rw [Disk.xferBios_of_uniform hw fun b hb => ⟨hinside b hb, hu b hb⟩]
    exact Disk.data_specBios hp s
  returned := by
    rintro pre wr mid rd post rfl hwr hrd hsector htotal hmid
    have hprefix : ∀ part, part <+: pre ++ wr :: (mid ++ rd :: post) →
        s.xferBios w part = s.specBios part := fun part hpart => Disk.xferBios_of_uniform hw
      (fun b hb => ⟨hinside b (hpart.subset hb), hu b (hpart.subset hb)⟩) s
    have hread := hprefix (pre ++ wr :: (mid ++ [rd])) ⟨post, by simp⟩
    have hwritten := hprefix (pre ++ wr :: mid) ⟨rd :: post, by simp⟩
    have hbefore := hprefix pre (List.prefix_append ..)
    rw [hread, hwritten, hbefore]
    have hstart : rd.start = wr.start := by rw [Bio.start, Bio.start, hsector]
    have hbytes := Disk.load_specBios hwr hmid (s.specBios pre)
    simp only [Disk.specBios, List.foldl_append, List.foldl_cons, List.foldl_nil] at hbytes ⊢
    rw [← hbytes, ← hstart, ← htotal]
    simp only [Bio.spec, hrd]

end VmemDisk

/-- **The storage law of the memory disk.** For bios inside the device the law holds exactly when
the segments of each bio have one length. -/
theorem vmemDisk_storageLaw_iff {w : ℕ} (hw : 32 ≤ w) {bios : List Bio}
    (hinside : ∀ b ∈ bios, b.Inside) (s : Disk) :
    StorageLaw w bios s ↔ ∀ b ∈ bios, b.Uniform := by
  constructor
  · intro h b hb
    exact (vmemDiskXferBio_eq_reference_iff hw (hinside b hb)).mp (h.copies b hb)
  · intro h
    exact storageLaw_of_uniform hw hinside h s

/-- A disk of zeros, in a host whose memory holds the low bytes of its addresses. -/
def vmemDiskSample : Disk := ⟨fun _ => 0, fun p => UInt8.ofNat p⟩

/-- A write of two segments and a read of the same sectors. -/
def vmemDiskSampleBios : List Bio :=
  [⟨3, .write, [⟨0, 512⟩, ⟨4096, 512⟩]⟩, ⟨3, .read, [⟨8192, 1024⟩]⟩]

theorem vmemDisk_storageLaw_iff_sample :
    StorageLaw 32 vmemDiskSampleBios vmemDiskSample ↔ ∀ b ∈ vmemDiskSampleBios, b.Uniform := by
  refine vmemDisk_storageLaw_iff le_rfl (fun b hb => ?_) vmemDiskSample
  obtain rfl | rfl : b = _ ∨ b = _ := by simpa [vmemDiskSampleBios] using hb
  · exact ⟨by decide, by decide⟩
  · exact ⟨by decide, by decide⟩

/-- A write of a segment of one sector and a segment of two. -/
def vmemDiskUnequalBio : Bio := ⟨0, .write, [⟨0, 512⟩, ⟨4096, 1024⟩]⟩

/-- **A segment cut short.** Of the second segment only the first sector is copied, and the law
fails. -/
theorem vmemDisk_short_copy :
    vmemDiskUnequalBio.Inside ∧
    (vmemDiskXferBio 32 vmemDiskUnequalBio).1 =
      [some ⟨0, 512, 0, .write⟩, some ⟨512, 512, 4096, .write⟩] ∧
    vmemDiskUnequalBio.reference = [⟨0, 512, 0, .write⟩, ⟨512, 1024, 4096, .write⟩] ∧
    ¬StorageLaw 32 [vmemDiskUnequalBio] vmemDiskSample := by
  refine ⟨⟨by decide, by decide⟩, by decide, by decide, fun h => ?_⟩
  exact absurd (h.copies vmemDiskUnequalBio List.mem_cons_self) (by decide)

end LinuxDriver
