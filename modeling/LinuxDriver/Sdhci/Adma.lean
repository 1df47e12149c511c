import LinuxDriver.Alignment
import LinuxDriver.ScatterGather

/-!
# The ADMA2 table of an SDHCI host

The controller moves the bytes of a request by a table of descriptors, the addresses of which must
be multiples of four. An entry of the scatter list that does not begin at such an address has its
first bytes, up to three, in a slot of the align buffer. `sdhci_adma_table_pre` copies them there
before a write, and `sdhci_adma_table_post` copies them back after a read.

An entry that is shorter than the bytes up to the next multiple of four leaves a negative rest, and
the descriptor of the rest has its lowest 16 bits as length.

A descriptor of 32-bit addresses has the lowest 32 bits of the address as its address. The host may
have a function of its own that writes the descriptors: that of the DesignWare host makes two of
them for a range that goes across a multiple of 128 MiB.

## Main definitions

* `SgEntry`, `AdmaHost`, `Adma2Desc`: an entry, the host, and a descriptor.
* `sdhciAdmaWriteDescs`: the descriptors of a range.
* `sdhciAdmaTablePre`, `sdhciAdmaTablePost`: the table, and the copies.
* `admaRun`: the controller.
* `SgEntry.Whole`: the bytes up to the next multiple of four are in the entry.
* `SgEntry.Reached`: the descriptors have room for the addresses of the entry.
* `Room`: at most as many entries have a descriptor too much as have one less.
* `MovesExactly`: what the table should do.

## Main results

* `admaRun_table`: the controller comes to the end of the table.
* `gather_copies_preLoop`, `gather_copies_postLoop`: the copies of a write and of a read.
* `le_sum_size_descs`: a short entry makes the controller move 65536 bytes more.
* `length_table_of_whole`: the length of the table.
* `movesExactly_iff`: when the table is exact.
-/

namespace LinuxDriver.Sdhci

/-! ### The table -/

/-- An entry of a scatter list after its mapping, at an address of 32 bits. Its last bytes may have
larger addresses. -/
structure SgEntry where
  dmaAddress : ℕ
  dmaLen : ℕ
  len_pos : 0 < dmaLen
  len_le : dmaLen ≤ 65536
  addr_lt : dmaAddress < 2 ^ 32

/-- The fields of `struct sdhci_host` about the table. `admaWriteDesc` is true if
`ops->adma_write_desc` is set: the only such function is that of the DesignWare host.
`sdhci_setup_host` does not use ADMA with an align buffer that is not aligned. -/
structure AdmaHost where
  alignAddr : ℕ
  use64BitDma : Bool
  noEndattrInNopdesc : Bool
  admaWriteDesc : Bool
  aligned : alignAddr % 4 = 0

/-- `struct sdhci_adma2_64_desc`, or `struct sdhci_adma2_32_desc` with zero as high address. -/
structure Adma2Desc where
  cmd : ℕ
  len : ℕ
  addrLo : ℕ
  addrHi : ℕ

/-- `ADMA2_TRAN_VALID`. -/
def adma2TranValid : ℕ := 0x21

/-- `ADMA2_NOP_END_VALID`. -/
def adma2NopEndValid : ℕ := 0x3

/-- `ADMA2_END`. -/
def adma2End : ℕ := 0x2

/-- `SZ_128M`. -/
def sz128M : ℕ := 0x08000000

/-- `sdhci_adma_write_desc`, with a `dma_addr_t` of 64 bits. -/
def sdhciAdmaWriteDesc (host : AdmaHost) (addr : ℕ) (len : ℤ) (cmd : ℕ) : Adma2Desc where
  cmd := cmd
  len := (len % 2 ^ 16).toNat
  addrLo := addr % 2 ^ 32
  addrHi := if host.use64BitDma then addr / 2 ^ 32 % 2 ^ 32 else 0

/-- `BOUNDARY_OK`. -/
def BoundaryOk (addr : ℕ) (len : ℤ) : Prop :=
  addr ||| (sz128M - 1) = (addr + len - 1).toNat ||| (sz128M - 1)

instance (addr : ℕ) (len : ℤ) : Decidable (BoundaryOk addr len) :=
  inferInstanceAs (Decidable (_ = _))

/-- `dwcmshc_adma_write_desc`. -/
def dwcmshcAdmaWriteDesc (host : AdmaHost) (addr : ℕ) (len : ℤ) (cmd : ℕ) : List Adma2Desc :=
  if len = 0 ∨ BoundaryOk addr len then [sdhciAdmaWriteDesc host addr len cmd]
  else
    let offset := addr &&& (sz128M - 1)
    let tmplen := sz128M - offset
    [sdhciAdmaWriteDesc host addr tmplen cmd,
      sdhciAdmaWriteDesc host (addr + tmplen) (len - tmplen) cmd]

/-- `__sdhci_adma_write_desc`. -/
def sdhciAdmaWriteDescs (host : AdmaHost) (addr : ℕ) (len : ℤ) (cmd : ℕ) : List Adma2Desc :=
  if host.admaWriteDesc then dwcmshcAdmaWriteDesc host addr len cmd
  else [sdhciAdmaWriteDesc host addr len cmd]

/-- `sdhci_adma_mark_end`, for the last descriptor. -/
def sdhciAdmaMarkEnd : List Adma2Desc → List Adma2Desc
  | [] => []
  | [d] => [{ d with cmd := d.cmd ||| adma2End }]
  | d :: d' :: ds => d :: sdhciAdmaMarkEnd (d' :: ds)

/-- `offset`, the bytes up to the next multiple of `SDHCI_ADMA2_ALIGN`. -/
def admaOffset (addr : ℕ) : ℕ := (4 - (addr &&& 3)) &&& 3

/-- The descriptors of what an entry has after `offset`. -/
def restDesc (host : AdmaHost) (addr : ℕ) (len : ℤ) : List Adma2Desc :=
  if len = 0 then [] else sdhciAdmaWriteDescs host addr len adma2TranValid

/-- The loop of `sdhci_adma_table_pre`, with the address of the next slot: the descriptors, and the
copies that are made. Neither `BUG_ON` is reached, for `offset` and the length of an entry. -/
def preLoop (host : AdmaHost) (write : Bool) : ℕ → List SgEntry → List Adma2Desc × List Copy
  | _, [] => ([], [])
  | align, sg :: sgs =>
    let offset := admaOffset sg.dmaAddress
    if offset = 0 then
      let next := preLoop host write align sgs
      (restDesc host sg.dmaAddress sg.dmaLen ++ next.1, next.2)
    else
      let next := preLoop host write (align + 4) sgs
      let copies := if write then [⟨align, sg.dmaAddress, offset⟩] else []
      (sdhciAdmaWriteDescs host align offset adma2TranValid ++
          (restDesc host (sg.dmaAddress + offset) (sg.dmaLen - offset) ++ next.1),
        copies ++ next.2)

/-- `sdhci_adma_table_pre`: the table, and the copies that are made. -/
def sdhciAdmaTablePre (host : AdmaHost) (write : Bool) (sgs : List SgEntry) :
    List Adma2Desc × List Copy :=
  let loop := preLoop host write host.alignAddr sgs
  if host.noEndattrInNopdesc then (sdhciAdmaMarkEnd loop.1, loop.2)
  else (loop.1 ++ sdhciAdmaWriteDescs host 0 0 adma2NopEndValid, loop.2)

/-- The loop of `sdhci_adma_table_post`, with the address of the next slot. -/
def postLoop : ℕ → List SgEntry → List Copy
  | _, [] => []
  | align, sg :: sgs =>
    if sg.dmaAddress &&& 3 ≠ 0 then
      ⟨sg.dmaAddress, align, 4 - (sg.dmaAddress &&& 3)⟩ :: postLoop (align + 4) sgs
    else postLoop align sgs

/-- `sdhci_adma_table_post`: the copies that are made. -/
def sdhciAdmaTablePost (host : AdmaHost) (write : Bool) (sgs : List SgEntry) : List Copy :=
  if write then []
  else if sgs.any fun sg => sg.dmaAddress &&& 3 ≠ 0 then postLoop host.alignAddr sgs
  else []

/-! ### The controller -/

namespace Adma2Desc

def addr (d : Adma2Desc) : ℕ := d.addrLo + 2 ^ 32 * d.addrHi

/-- What the descriptor describes, where a length of zero stands for 65536. -/
def region (d : Adma2Desc) : Region := ⟨d.addr, if d.len = 0 then 65536 else d.len⟩

end Adma2Desc

/-- The controller: the regions that it moves up to the end marker, or `none` at a descriptor that
is not valid or behind the table. -/
def admaRun : List Adma2Desc → Option (List Region)
  | [] => none
  | d :: ds =>
    -- bits 4 and 5 of `cmd` are 2 for a transfer
    let here := if d.cmd &&& 0x30 = 0x20 then [d.region] else []
    if d.cmd &&& 0x1 = 0 then none
    else if d.cmd &&& adma2End ≠ 0 then some here
    else (admaRun ds).map (here ++ ·)

/-! ### What the table should do -/

namespace SgEntry

/-- The bytes of the entry. -/
def region (sg : SgEntry) : Region := ⟨sg.dmaAddress, sg.dmaLen⟩

/-- The bytes up to the next multiple of four are in the entry. -/
def Whole (sg : SgEntry) : Prop := admaOffset sg.dmaAddress ≤ sg.dmaLen

/-- What the entry has from the next multiple of four on. -/
def rest (sg : SgEntry) : Region :=
  ⟨sg.dmaAddress + admaOffset sg.dmaAddress, sg.dmaLen - admaOffset sg.dmaAddress⟩

/-- The entry has no bytes before the next multiple of four, or none after it. -/
def OnePart (sg : SgEntry) : Prop := admaOffset sg.dmaAddress = 0 ∨ sg.rest.size = 0

instance (sg : SgEntry) : Decidable sg.OnePart := inferInstanceAs (Decidable (_ ∨ _))

/-- The descriptors of the rest have room for its addresses: with addresses of 32 bits, the rest
begins below 4 GiB, and where it might be split there, it also ends there. -/
def Reached (host : AdmaHost) (sg : SgEntry) : Prop :=
  host.use64BitDma = true ∨ sg.rest.size = 0 ∨
    (sg.rest.addr < 2 ^ 32 ∧ (host.admaWriteDesc = true → sg.rest.addr + sg.rest.size ≤ 2 ^ 32))

end SgEntry

/-- The host has two descriptors for the range, which goes across a multiple of 128 MiB. -/
def AdmaHost.Splits (host : AdmaHost) (r : Region) : Prop :=
  host.admaWriteDesc = true ∧ r.size ≠ 0 ∧ r.addr / sz128M ≠ (r.addr + r.size - 1) / sz128M

instance (host : AdmaHost) (r : Region) : Decidable (host.Splits r) :=
  inferInstanceAs (Decidable (_ ∧ _ ∧ _))

/-- At most as many entries have a rest that is split as have one part only, or one more where the
end marker needs no descriptor. -/
def Room (host : AdmaHost) (sgs : List SgEntry) : Prop :=
  sgs.countP (fun sg => host.Splits sg.rest) ≤
    sgs.countP (fun sg => sg.OnePart) + (if host.noEndattrInNopdesc then 1 else 0)

instance (host : AdmaHost) (sgs : List SgEntry) : Decidable (Room host sgs) :=
  inferInstanceAs (Decidable (_ ≤ _))

/-- The number of slots of a request. -/
def slotCount (sgs : List SgEntry) : ℕ := sgs.countP fun sg => admaOffset sg.dmaAddress ≠ 0

/-- The slots of a request from an address on. -/
def slots (align : ℕ) (sgs : List SgEntry) : Region := ⟨align, 4 * slotCount sgs⟩

/-- The number of bytes of the entries. -/
def totalLen (sgs : List SgEntry) : ℕ := (sgs.map SgEntry.dmaLen).sum

/-- The address is in the entries or in the slots. -/
def Touched (align : ℕ) (sgs : List SgEntry) (x : ℕ) : Prop :=
  (∃ sg ∈ sgs, x ∈ sg.region) ∨ x ∈ slots align sgs

/-- The memory after a read: the controller stores what comes from the card, in between the
copies. -/
def admaRead (host : AdmaHost) (sgs : List SgEntry) (regions : List Region)
    (data mem : Buffer UInt8) : Buffer UInt8 :=
  runCopies (scatter data 0 regions (runCopies mem (sdhciAdmaTablePre host false sgs).2))
    (sdhciAdmaTablePost host false sgs)

/-- **What the table should do.** For a write and for a read, the controller comes to the end of a
small table of aligned descriptors and moves as many bytes as there are, none of them outside the
entries and the slots. A write sends the bytes of the entries, and a read stores into them what
comes, where no two of them have a byte in common. Nothing else is changed. -/
structure MovesExactly (host : AdmaHost) (sgs : List SgEntry) : Prop where
  length_le : ∀ write, (sdhciAdmaTablePre host write sgs).1.length ≤ 2 * sgs.length + 1
  aligned : ∀ write, ∀ d ∈ (sdhciAdmaTablePre host write sgs).1, d.addr % 4 = 0
  moves : ∀ write, ∃ regions, admaRun (sdhciAdmaTablePre host write sgs).1 = some regions ∧
    (regions.map Region.size).sum = totalLen sgs ∧
    ∀ r ∈ regions, ∀ x ∈ r, Touched host.alignAddr sgs x
  write : ∀ mem : Buffer UInt8, ∃ regions,
    admaRun (sdhciAdmaTablePre host true sgs).1 = some regions ∧
    gather (runCopies mem (sdhciAdmaTablePre host true sgs).2) regions =
      gather mem (sgs.map SgEntry.region) ∧
    ∀ x ∉ slots host.alignAddr sgs, runCopies mem (sdhciAdmaTablePre host true sgs).2 x = mem x
  read : ∀ data mem : Buffer UInt8, ∃ regions,
    admaRun (sdhciAdmaTablePre host false sgs).1 = some regions ∧
    ((sgs.map SgEntry.region).Pairwise Region.Apart →
      gather (admaRead host sgs regions data mem) (sgs.map SgEntry.region) =
        data.load 0 (totalLen sgs)) ∧
    ∀ x, ¬Touched host.alignAddr sgs x → admaRead host sgs regions data mem x = mem x

/-- The addresses of descriptors lie below this. -/
def AdmaHost.reach (host : AdmaHost) : ℕ := 2 ^ (if host.use64BitDma then 64 else 32)

/-- Where the align buffer lies: the host can address it, and no entry is in it. -/
structure Placed (host : AdmaHost) (align : ℕ) (sgs : List SgEntry) : Prop where
  fits : align + 4 * slotCount sgs ≤ host.reach
  apart : ∀ sg ∈ sgs, sg.region.Apart (slots align sgs)

/-! ### Offsets and descriptors -/

theorem and_three (n : ℕ) : n &&& 3 = n % 4 := Nat.and_two_pow_sub_one_eq_mod n 2

theorem admaOffset_eq (addr : ℕ) : admaOffset addr = (4 - addr % 4) % 4 := by
  rw [admaOffset, and_three, and_three]

theorem admaOffset_lt (addr : ℕ) : admaOffset addr < 4 := by
  rw [admaOffset_eq]
  exact Nat.mod_lt _ (Nat.succ_pos 3)

section Desc

variable (host : AdmaHost) {addr : ℕ} {len : ℤ} (cmd : ℕ)

theorem addr_writeDesc :
    (sdhciAdmaWriteDesc host addr len cmd).addr = addr % host.reach := by
  rw [Adma2Desc.addr, sdhciAdmaWriteDesc, AdmaHost.reach]
  dsimp only
  split
  · omega
  · rw [Nat.mul_zero, Nat.add_zero]

theorem addr_writeDesc_mod_four (h : addr % 4 = 0) :
    (sdhciAdmaWriteDesc host addr len cmd).addr % 4 = 0 := by
  rw [Adma2Desc.addr, sdhciAdmaWriteDesc]
  dsimp only
  omega

/-- What is moved is not empty, and as long as it should be up to a multiple of 65536. -/
theorem size_writeDesc :
    ((sdhciAdmaWriteDesc host addr len cmd).region.size : ℤ) % 65536 = len % 65536 ∧
      0 < (sdhciAdmaWriteDesc host addr len cmd).region.size := by
  rw [Adma2Desc.region, sdhciAdmaWriteDesc]
  dsimp only
  split_ifs <;> omega

theorem region_writeDesc {n : ℕ} (hpos : 0 < n) (hle : n ≤ 65536) :
    (sdhciAdmaWriteDesc host addr n cmd).region = ⟨addr % host.reach, n⟩ := by
  have hsize := @size_writeDesc host addr n cmd
  have haddr := @addr_writeDesc host addr n cmd
  have hlt : (sdhciAdmaWriteDesc host addr n cmd).region.size ≤ 65536 := by
    rw [Adma2Desc.region, sdhciAdmaWriteDesc]
    dsimp only
    split_ifs <;> omega
  have heq : (sdhciAdmaWriteDesc host addr n cmd).region.size = n := by omega
  rw [Adma2Desc.region] at heq ⊢
  rw [haddr, Region.mk.injEq]
  exact ⟨rfl, heq⟩

end Desc

/-! ### The descriptors of a range -/

namespace AdmaHost

/-- The parts that a range is described in. -/
def parts (host : AdmaHost) (r : Region) : List Region :=
  if r.size = 0 then []
  else if host.Splits r then
    let tmplen := sz128M - r.addr % sz128M
    [⟨r.addr, tmplen⟩, ⟨r.addr + tmplen, r.size - tmplen⟩]
  else [r]

/-- What the controller takes a described range for. -/
def seen (host : AdmaHost) (r : Region) : Region := ⟨r.addr % host.reach, r.size⟩

end AdmaHost

theorem boundaryOk_iff {addr n : ℕ} (hpos : 0 < n) :
    BoundaryOk addr n ↔ addr / sz128M = (addr + n - 1) / sz128M := by
  have hlast : ((addr : ℤ) + n - 1).toNat = addr + n - 1 := by omega
  rw [BoundaryOk, hlast]
  exact @or_two_pow_sub_one_inj addr (addr + n - 1) 27

section Parts

variable (host : AdmaHost) {addr : ℕ} {r : Region}

theorem parts_of_eq (h : r.size = 0) : host.parts r = [] := if_pos h

theorem parts_of_splits (h : host.Splits r) :
    host.parts r = [⟨r.addr, sz128M - r.addr % sz128M⟩,
      ⟨r.addr + (sz128M - r.addr % sz128M), r.size - (sz128M - r.addr % sz128M)⟩] := by
  rw [AdmaHost.parts, if_neg h.2.1, if_pos h]

theorem parts_of_not_splits (hsize : r.size ≠ 0) (h : ¬host.Splits r) : host.parts r = [r] := by
  rw [AdmaHost.parts, if_neg hsize, if_neg h]

/-- A range that is split goes on behind the multiple of 128 MiB. -/
theorem lt_of_splits (h : host.Splits r) : sz128M - r.addr % sz128M < r.size := by
  obtain ⟨-, hsize, hcross⟩ := h
  rw [sz128M] at hcross ⊢
  omega

/-- The parts make up the range. -/
theorem cut_parts (r : Region) : Region.Cut r (host.parts r) := by
  by_cases hsize : r.size = 0
  · obtain ⟨addr, n⟩ := r
    obtain rfl : n = 0 := hsize
    rw [parts_of_eq host rfl]
    exact .nil addr
  · by_cases hsplit : host.Splits r
    · have hlt := lt_of_splits host hsplit
      have hcut := Region.Cut.pair r.addr (sz128M - r.addr % sz128M)
        (r.size - (sz128M - r.addr % sz128M))
      rw [Nat.add_sub_cancel' hlt.le] at hcut
      rw [parts_of_splits host hsplit]
      exact hcut
    · rw [parts_of_not_splits host hsize hsplit]
      exact .single r

theorem length_parts (r : Region) :
    (host.parts r).length =
      (if r.size = 0 then 0 else 1) + (if host.Splits r then 1 else 0) := by
  by_cases hsize : r.size = 0
  · have hsplit : ¬host.Splits r := fun h => h.2.1 hsize
    rw [parts_of_eq host hsize, if_pos hsize, if_neg hsplit]
    rfl
  · by_cases hsplit : host.Splits r
    · rw [parts_of_splits host hsplit, if_neg hsize, if_pos hsplit]
      rfl
    · rw [parts_of_not_splits host hsize hsplit, if_neg hsize, if_neg hsplit]
      rfl

/-- The bytes of a slot are in one part. -/
theorem parts_slot {align n : ℕ} (halign : align % 4 = 0) (hpos : 0 < n) (hlt : n < 4) :
    host.parts ⟨align, n⟩ = [⟨align, n⟩] := by
  refine parts_of_not_splits host hpos.ne' fun h => ?_
  have hcross : align / sz128M ≠ (align + n - 1) / sz128M := h.2.2
  rw [sz128M] at hcross
  omega

theorem writeDescs_zero (addr cmd : ℕ) :
    sdhciAdmaWriteDescs host addr 0 cmd = [sdhciAdmaWriteDesc host addr 0 cmd] := by
  rw [sdhciAdmaWriteDescs, dwcmshcAdmaWriteDesc, if_pos (Or.inl rfl), ite_self]

variable (addr) in
/-- A range has one descriptor, or two that meet at a multiple of 128 MiB. -/
theorem writeDescs_cases (len : ℤ) (cmd : ℕ) :
    sdhciAdmaWriteDescs host addr len cmd = [sdhciAdmaWriteDesc host addr len cmd] ∨
    ∃ tmplen : ℕ, tmplen = sz128M - addr % sz128M ∧
      sdhciAdmaWriteDescs host addr len cmd =
        [sdhciAdmaWriteDesc host addr tmplen cmd,
          sdhciAdmaWriteDesc host (addr + tmplen) (len - tmplen) cmd] := by
  have hmask : addr &&& (sz128M - 1) = addr % sz128M := Nat.and_two_pow_sub_one_eq_mod addr 27
  rw [sdhciAdmaWriteDescs, dwcmshcAdmaWriteDesc, hmask]
  split
  · split
    · exact .inl rfl
    · exact .inr ⟨_, rfl, rfl⟩
  · exact .inl rfl

theorem writeDescs_ne_nil (addr : ℕ) (len : ℤ) (cmd : ℕ) :
    sdhciAdmaWriteDescs host addr len cmd ≠ [] := by
  rcases writeDescs_cases host addr len cmd with h | ⟨tmplen, -, h⟩ <;> rw [h] <;>
    exact List.cons_ne_nil _ _

/-- All descriptors of a range are written by `sdhci_adma_write_desc`, at multiples of four. -/
theorem forall_mem_writeDescs {P : Adma2Desc → Prop} {cmd : ℕ}
    (hP : ∀ addr len, addr % 4 = 0 → P (sdhciAdmaWriteDesc host addr len cmd))
    (h : addr % 4 = 0) (len : ℤ) : ∀ d ∈ sdhciAdmaWriteDescs host addr len cmd, P d := by
  rcases writeDescs_cases host addr len cmd with heq | ⟨tmplen, htmplen, heq⟩
  · rw [heq]
    exact List.forall_mem_singleton.mpr (hP addr len h)
  · have hnext : (addr + tmplen) % 4 = 0 := by
      rw [htmplen, sz128M]
      omega
    rw [heq]
    exact List.forall_mem_cons.mpr ⟨hP _ _ h, List.forall_mem_singleton.mpr (hP _ _ hnext)⟩

/-- A range makes the controller move its length at least, or with a negative length another 65536
bytes. -/
theorem le_sum_size_writeDescs {len : ℤ} (hlo : -65536 < len) (hhi : len ≤ 65536) (cmd : ℕ) :
    (if 0 ≤ len then len else len + 65536) ≤
      ((((sdhciAdmaWriteDescs host addr len cmd).map Adma2Desc.region).map
        Region.size).sum : ℤ) := by
  rcases writeDescs_cases host addr len cmd with heq | ⟨tmplen, -, heq⟩
  · obtain ⟨hmod, hpos⟩ := @size_writeDesc host addr len cmd
    rw [heq, List.map_singleton, List.map_singleton, List.sum_singleton]
    split_ifs <;> omega
  · obtain ⟨hmod, hpos⟩ := @size_writeDesc host addr tmplen cmd
    obtain ⟨hmod', hpos'⟩ := @size_writeDesc host (addr + tmplen) (len - tmplen) cmd
    rw [heq, List.map_cons, List.map_singleton, List.map_cons, List.map_singleton, List.sum_cons,
      List.sum_singleton, Nat.cast_add]
    split_ifs <;> omega

/-- The controller moves the parts of a range. -/
theorem region_writeDescs {n : ℕ} (hpos : 0 < n) (hle : n ≤ 65536) (cmd : ℕ) :
    (sdhciAdmaWriteDescs host addr n cmd).map Adma2Desc.region =
      (host.parts ⟨addr, n⟩).map host.seen := by
  have hone : ¬host.Splits ⟨addr, n⟩ → [sdhciAdmaWriteDesc host addr n cmd].map Adma2Desc.region =
      (host.parts ⟨addr, n⟩).map host.seen := by
    intro hsplit
    rw [parts_of_not_splits host hpos.ne' hsplit, List.map_singleton, List.map_singleton,
      region_writeDesc host cmd hpos hle]
    rfl
  rw [sdhciAdmaWriteDescs]
  by_cases hhook : host.admaWriteDesc = true
  · rw [if_pos hhook, dwcmshcAdmaWriteDesc]
    by_cases hok : BoundaryOk addr n
    · rw [if_pos (.inr hok)]
      exact hone fun h => h.2.2 ((boundaryOk_iff hpos).mp hok)
    · have hsplit : host.Splits ⟨addr, n⟩ :=
        ⟨hhook, hpos.ne', fun h => hok ((boundaryOk_iff hpos).mpr h)⟩
      have hmask : addr &&& (sz128M - 1) = addr % sz128M := Nat.and_two_pow_sub_one_eq_mod addr 27
      have hmodlt : addr % sz128M < sz128M := Nat.mod_lt _ (by decide)
      have hlt : sz128M - addr % sz128M < n := lt_of_splits host hsplit
      have hrest : (n : ℤ) - (sz128M - addr % sz128M : ℕ) =
          (n - (sz128M - addr % sz128M) : ℕ) := (Nat.cast_sub hlt.le).symm
      rw [if_neg (by rintro (h | h); exacts [by omega, hok h]), parts_of_splits host hsplit, hmask]
      dsimp only
      rw [hrest, List.map_cons, List.map_singleton, List.map_cons, List.map_singleton,
        region_writeDesc host cmd (by omega) (by omega),
        region_writeDesc host cmd (by omega) (by omega)]
      rfl
  · rw [if_neg hhook]
    exact hone fun h => hhook h.1

end Parts

/-! ### One entry -/

section Entry

variable (host : AdmaHost) (write : Bool) {align : ℕ} {sg : SgEntry} {sgs : List SgEntry}

/-- An aligned entry has the descriptors of its bytes. -/
theorem preLoop_cons_of_eq (hoff : admaOffset sg.dmaAddress = 0) :
    preLoop host write align (sg :: sgs) =
      (restDesc host sg.dmaAddress sg.dmaLen ++ (preLoop host write align sgs).1,
        (preLoop host write align sgs).2) := by
  rw [preLoop, if_pos hoff]

/-- Another entry has descriptors for the slot and for its rest. -/
theorem preLoop_cons_of_ne (hoff : admaOffset sg.dmaAddress ≠ 0) :
    preLoop host write align (sg :: sgs) =
      (sdhciAdmaWriteDescs host align (admaOffset sg.dmaAddress) adma2TranValid ++
          (restDesc host (sg.dmaAddress + admaOffset sg.dmaAddress)
              (sg.dmaLen - admaOffset sg.dmaAddress) ++ (preLoop host write (align + 4) sgs).1),
        (if write then [⟨align, sg.dmaAddress, admaOffset sg.dmaAddress⟩] else []) ++
          (preLoop host write (align + 4) sgs).2) := by
  rw [preLoop, if_neg hoff]

/-- All descriptors are for transfers from multiples of four. -/
theorem forall_mem_preLoop {P : Adma2Desc → Prop}
    (hP : ∀ addr len, addr % 4 = 0 → P (sdhciAdmaWriteDesc host addr len adma2TranValid))
    (h : align % 4 = 0) : ∀ d ∈ (preLoop host write align sgs).1, P d := by
  have hrest : ∀ addr len, addr % 4 = 0 → ∀ d ∈ restDesc host addr len, P d := by
    intro addr len haddr d hd
    rw [restDesc] at hd
    split at hd
    · exact absurd hd List.not_mem_nil
    · exact forall_mem_writeDescs host hP haddr len d hd
  induction sgs generalizing align with
  | nil => exact fun d hd => absurd hd List.not_mem_nil
  | cons sg sgs ih =>
    have heq := admaOffset_eq sg.dmaAddress
    by_cases hoff : admaOffset sg.dmaAddress = 0
    · rw [preLoop_cons_of_eq host write hoff]
      exact List.forall_mem_append.mpr ⟨hrest _ _ (by omega), ih h⟩
    · rw [preLoop_cons_of_ne host write hoff]
      exact List.forall_mem_append.mpr ⟨forall_mem_writeDescs host hP h _,
        List.forall_mem_append.mpr ⟨hrest _ _ (by omega), ih (by omega)⟩⟩

end Entry

/-! ### The run of the controller -/

section Run

variable (host : AdmaHost) (write : Bool)

/-- A descriptor of a transfer is moved, and the controller goes on. -/
theorem admaRun_tran {d : Adma2Desc} (h : d.cmd = adma2TranValid) (ds : List Adma2Desc) :
    admaRun (d :: ds) = (admaRun ds).map ([d.region] ++ ·) := by
  rw [admaRun, h]
  rfl

/-- A descriptor with the end marker is the last one. -/
theorem admaRun_end {d : Adma2Desc} {cmd : ℕ} (h : d.cmd = cmd) (hvalid : cmd &&& 0x1 ≠ 0)
    (hend : cmd &&& adma2End ≠ 0) (ds : List Adma2Desc) :
    admaRun (d :: ds) = some (if cmd &&& 0x30 = 0x20 then [d.region] else []) := by
  subst h
  rw [admaRun, if_neg hvalid, if_pos hend]

theorem admaRun_nopEnd {ds : List Adma2Desc} (h : ∀ d ∈ ds, d.cmd = adma2TranValid) :
    admaRun (ds ++ [sdhciAdmaWriteDesc host 0 0 adma2NopEndValid]) =
      some (ds.map Adma2Desc.region) := by
  induction ds with
  | nil =>
    have hcmd : (sdhciAdmaWriteDesc host 0 0 adma2NopEndValid).cmd = adma2NopEndValid := rfl
    rw [List.nil_append, admaRun_end hcmd (by decide) (by decide), if_neg (by decide),
      List.map_nil]
  | cons d ds ih =>
    obtain ⟨hd, hds⟩ := List.forall_mem_cons.mp h
    rw [List.cons_append, admaRun_tran hd, ih hds]
    rfl

theorem admaRun_markEnd {ds : List Adma2Desc} (hne : ds ≠ [])
    (h : ∀ d ∈ ds, d.cmd = adma2TranValid) :
    admaRun (sdhciAdmaMarkEnd ds) = some (ds.map Adma2Desc.region) := by
  induction ds with
  | nil => exact absurd rfl hne
  | cons d ds ih =>
    obtain ⟨hd, hds⟩ := List.forall_mem_cons.mp h
    cases ds with
    | nil =>
      have hcmd : d.cmd ||| adma2End = 0x23 := by
        rw [hd]
        rfl
      rw [sdhciAdmaMarkEnd, @admaRun_end { d with cmd := _ } 0x23 hcmd (by decide) (by decide),
        if_pos (by decide)]
      rfl
    | cons d' ds =>
      rw [sdhciAdmaMarkEnd, admaRun_tran hd, ih (List.cons_ne_nil d' ds) hds]
      rfl

/-- A request with an entry has a descriptor. -/
theorem preLoop_ne_nil (align : ℕ) {sgs : List SgEntry} (hne : sgs ≠ []) :
    (preLoop host write align sgs).1 ≠ [] := by
  obtain ⟨sg, sgs, rfl⟩ := List.exists_cons_of_ne_nil hne
  by_cases hoff : admaOffset sg.dmaAddress = 0
  · have hpos := sg.len_pos
    rw [preLoop_cons_of_eq host write hoff, restDesc, if_neg (by omega)]
    exact List.append_ne_nil_of_left_ne_nil (writeDescs_ne_nil host _ _ _) _
  · rw [preLoop_cons_of_ne host write hoff]
    exact List.append_ne_nil_of_left_ne_nil (writeDescs_ne_nil host _ _ _) _

/-- **The run.** With either end marker, the controller comes to the end of the table. -/
theorem admaRun_table {sgs : List SgEntry} (hne : sgs ≠ []) :
    admaRun (sdhciAdmaTablePre host write sgs).1 =
      some ((preLoop host write host.alignAddr sgs).1.map Adma2Desc.region) := by
  have hcmd : ∀ d ∈ (preLoop host write host.alignAddr sgs).1, d.cmd = adma2TranValid :=
    forall_mem_preLoop host write (fun _ _ _ => rfl) host.aligned
  rw [sdhciAdmaTablePre, writeDescs_zero]
  cases host.noEndattrInNopdesc with
  | true => exact admaRun_markEnd (preLoop_ne_nil host write host.alignAddr hne) hcmd
  | false => exact admaRun_nopEnd host hcmd

theorem copies_table (sgs : List SgEntry) :
    (sdhciAdmaTablePre host write sgs).2 = (preLoop host write host.alignAddr sgs).2 := by
  rw [sdhciAdmaTablePre]
  split <;> rfl

/-! ### The size of the table and the addresses in it -/

theorem length_markEnd (ds : List Adma2Desc) : (sdhciAdmaMarkEnd ds).length = ds.length := by
  induction ds with
  | nil => rfl
  | cons d ds ih =>
    cases ds with
    | nil => rfl
    | cons d' ds => rw [sdhciAdmaMarkEnd, List.length_cons, ih, ← List.length_cons]

/-- The end marker takes a descriptor, or none. -/
theorem length_table (sgs : List SgEntry) :
    (sdhciAdmaTablePre host write sgs).1.length =
      (preLoop host write host.alignAddr sgs).1.length +
        (if host.noEndattrInNopdesc then 0 else 1) := by
  rw [sdhciAdmaTablePre, writeDescs_zero]
  cases host.noEndattrInNopdesc with
  | true => exact length_markEnd _
  | false => exact List.length_append

theorem aligned_markEnd {ds : List Adma2Desc} (h : ∀ d ∈ ds, d.addr % 4 = 0) :
    ∀ d ∈ sdhciAdmaMarkEnd ds, d.addr % 4 = 0 := by
  induction ds with
  | nil => exact h
  | cons d ds ih =>
    obtain ⟨hd, hds⟩ := List.forall_mem_cons.mp h
    cases ds with
    | nil => exact List.forall_mem_cons.mpr ⟨hd, fun d hd => absurd hd List.not_mem_nil⟩
    | cons d' ds => exact List.forall_mem_cons.mpr ⟨hd, ih hds⟩

theorem aligned_table (sgs : List SgEntry) :
    ∀ d ∈ (sdhciAdmaTablePre host write sgs).1, d.addr % 4 = 0 := by
  have hloop : ∀ d ∈ (preLoop host write host.alignAddr sgs).1, d.addr % 4 = 0 :=
    forall_mem_preLoop host write (fun _ _ haddr => addr_writeDesc_mod_four host _ haddr)
      host.aligned
  rw [sdhciAdmaTablePre, writeDescs_zero]
  cases host.noEndattrInNopdesc with
  | true => exact aligned_markEnd hloop
  | false =>
    refine List.forall_mem_append.mpr ⟨hloop, fun d hd => ?_⟩
    rw [List.mem_singleton.mp hd]
    exact addr_writeDesc_mod_four host _ rfl

/-! ### How many bytes are moved -/

/-- The bytes that the rest of an entry makes the controller move. -/
theorem le_sum_size_restDesc (addr : ℕ) {len : ℤ} (hlo : -65536 < len) (hhi : len ≤ 65536) :
    (if 0 ≤ len then len else len + 65536) ≤
      ((((restDesc host addr len).map Adma2Desc.region).map Region.size).sum : ℤ) := by
  rw [restDesc]
  by_cases hzero : len = 0
  · rw [if_pos hzero, hzero]
    rfl
  · rw [if_neg hzero]
    exact le_sum_size_writeDescs host hlo hhi adma2TranValid

/-- **Short entries.** Each of them makes the controller move another 65536 bytes. -/
theorem le_sum_size_descs (align : ℕ) (sgs : List SgEntry) :
    totalLen sgs + 65536 * sgs.countP (fun sg => sg.dmaLen < admaOffset sg.dmaAddress) ≤
      (((preLoop host write align sgs).1.map Adma2Desc.region).map Region.size).sum := by
  induction sgs generalizing align with
  | nil => exact le_rfl
  | cons sg sgs ih =>
    have hlt := admaOffset_lt sg.dmaAddress
    have hle := sg.len_le
    rw [totalLen, List.map_cons, List.sum_cons, ← totalLen, List.countP_cons]
    by_cases hoff : admaOffset sg.dmaAddress = 0
    · have hnext := ih align
      have hrest := @le_sum_size_restDesc host sg.dmaAddress sg.dmaLen (by omega) (by omega)
      have hshort : ¬sg.dmaLen < admaOffset sg.dmaAddress := by omega
      rw [if_pos (by omega)] at hrest
      rw [preLoop_cons_of_eq host write hoff, List.map_append, List.map_append, List.sum_append,
        if_neg (by rwa [decide_eq_true_iff])]
      omega
    · have hnext := ih (align + 4)
      have hhead := @le_sum_size_writeDescs host align (admaOffset sg.dmaAddress) (by omega)
        (by omega) adma2TranValid
      have hrest := @le_sum_size_restDesc host (sg.dmaAddress + admaOffset sg.dmaAddress)
        (sg.dmaLen - admaOffset sg.dmaAddress) (by omega) (by omega)
      rw [if_pos (by omega)] at hhead
      rw [preLoop_cons_of_ne host write hoff, List.map_append, List.map_append, List.sum_append,
        List.map_append, List.map_append, List.sum_append]
      by_cases hshort : sg.dmaLen < admaOffset sg.dmaAddress
      · rw [if_neg (by omega)] at hrest
        rw [if_pos (by rwa [decide_eq_true_iff])]
        omega
      · rw [if_pos (by omega)] at hrest
        rw [if_neg (by rwa [decide_eq_true_iff])]
        omega

end Run

/-! ### The regions that are moved -/

/-- The regions of a table without short entries, with the address of the next slot. -/
def regionsOf (host : AdmaHost) : ℕ → List SgEntry → List Region
  | _, [] => []
  | align, sg :: sgs =>
    let offset := admaOffset sg.dmaAddress
    if offset = 0 then host.parts sg.rest ++ regionsOf host align sgs
    else ⟨align, offset⟩ :: (host.parts sg.rest ++ regionsOf host (align + 4) sgs)

section Regions

variable {host : AdmaHost} {align : ℕ} {sg : SgEntry} {sgs : List SgEntry}

theorem regionsOf_cons_of_eq (hoff : admaOffset sg.dmaAddress = 0) :
    regionsOf host align (sg :: sgs) = host.parts sg.rest ++ regionsOf host align sgs := by
  rw [regionsOf, if_pos hoff]

theorem regionsOf_cons_of_ne (hoff : admaOffset sg.dmaAddress ≠ 0) :
    regionsOf host align (sg :: sgs) =
      ⟨align, admaOffset sg.dmaAddress⟩ ::
        (host.parts sg.rest ++ regionsOf host (align + 4) sgs) := by
  rw [regionsOf, if_neg hoff]

/-- An aligned entry is all rest. -/
theorem SgEntry.rest_of_eq (hoff : admaOffset sg.dmaAddress = 0) : sg.rest = sg.region := by
  rw [SgEntry.rest, hoff]
  rfl

theorem slotCount_cons_of_eq (h : admaOffset sg.dmaAddress = 0) :
    slotCount (sg :: sgs) = slotCount sgs := by
  rw [slotCount, List.countP_cons, if_neg (by simp [h])]
  rfl

theorem slotCount_cons_of_ne (h : admaOffset sg.dmaAddress ≠ 0) :
    slotCount (sg :: sgs) = slotCount sgs + 1 := by
  rw [slotCount, List.countP_cons, if_pos (by simp [h])]
  rfl

/-- The slots of the other entries are slots. -/
theorem mem_slots_cons {x : ℕ} (hoff : admaOffset sg.dmaAddress ≠ 0)
    (hx : x ∈ slots (align + 4) sgs) : x ∈ slots align (sg :: sgs) := by
  obtain ⟨hlo, hhi⟩ := hx
  rw [slots, slotCount_cons_of_ne hoff]
  change align + 4 ≤ x at hlo
  change x < align + 4 + 4 * slotCount sgs at hhi
  exact ⟨by dsimp only; omega, by dsimp only; omega⟩

/-- The first bytes of a slot are in the slots. -/
theorem mem_slots_head {x : ℕ} (hoff : admaOffset sg.dmaAddress ≠ 0)
    (hx : x ∈ (⟨align, admaOffset sg.dmaAddress⟩ : Region)) : x ∈ slots align (sg :: sgs) := by
  have hlt := admaOffset_lt sg.dmaAddress
  obtain ⟨hlo, hhi⟩ := hx
  rw [slots, slotCount_cons_of_ne hoff]
  exact ⟨hlo, by dsimp only at hhi ⊢; omega⟩

/-- An aligned entry uses no slot. -/
theorem Placed.tail_of_eq (h : Placed host align (sg :: sgs))
    (hoff : admaOffset sg.dmaAddress = 0) : Placed host align sgs := by
  obtain ⟨hfits, hapart⟩ := h
  rw [slotCount_cons_of_eq hoff] at hfits
  rw [slots, slotCount_cons_of_eq hoff] at hapart
  exact ⟨hfits, fun sg' hsg' => hapart sg' (List.mem_cons_of_mem sg hsg')⟩

/-- Another entry uses the first slot. -/
theorem Placed.tail_of_ne (h : Placed host align (sg :: sgs))
    (hoff : admaOffset sg.dmaAddress ≠ 0) : Placed host (align + 4) sgs := by
  obtain ⟨hfits, hapart⟩ := h
  rw [slotCount_cons_of_ne hoff] at hfits
  refine ⟨by omega, fun sg' hsg' x hx hslots => ?_⟩
  exact hapart sg' (List.mem_cons_of_mem sg hsg') x hx (mem_slots_cons hoff hslots)

theorem region_restDesc {r : Region} (hle : r.size ≤ 65536) :
    (restDesc host r.addr r.size).map Adma2Desc.region = (host.parts r).map host.seen := by
  rw [restDesc]
  by_cases hzero : r.size = 0
  · rw [if_pos (by omega), parts_of_eq host hzero]
    rfl
  · rw [if_neg (by omega)]
    exact region_writeDescs host (Nat.pos_of_ne_zero hzero) hle adma2TranValid

/-- **The regions.** Without short entries the table describes the entries, with the first bytes of
some of them in slots. -/
theorem region_preLoop (write : Bool) (halign : align % 4 = 0) (hwhole : ∀ sg ∈ sgs, sg.Whole) :
    (preLoop host write align sgs).1.map Adma2Desc.region =
      (regionsOf host align sgs).map host.seen := by
  induction sgs generalizing align with
  | nil => rfl
  | cons sg sgs ih =>
    obtain ⟨hsg, hsgs⟩ := List.forall_mem_cons.mp hwhole
    have hle := sg.len_le
    have hrestLe : sg.rest.size ≤ 65536 := (Nat.sub_le _ _).trans hle
    have hrest := @region_restDesc host sg.rest hrestLe
    by_cases hoff : admaOffset sg.dmaAddress = 0
    · rw [sg.rest_of_eq hoff] at hrest
      rw [preLoop_cons_of_eq host write hoff, regionsOf_cons_of_eq hoff, List.map_append,
        List.map_append, ih halign hsgs, sg.rest_of_eq hoff, ← hrest]
      rfl
    · have hlt := admaOffset_lt sg.dmaAddress
      have hcast : (sg.dmaLen : ℤ) - admaOffset sg.dmaAddress = sg.rest.size :=
        (Nat.cast_sub hsg).symm
      rw [preLoop_cons_of_ne host write hoff, regionsOf_cons_of_ne hoff, List.map_append,
        List.map_append, List.map_cons, List.map_append, ih (by omega) hsgs, ← hrest, hcast,
        region_writeDescs host (Nat.pos_of_ne_zero hoff) (by omega),
        parts_slot host halign (Nat.pos_of_ne_zero hoff) hlt]
      rfl

/-- How many regions there are: two for each entry, but one where it has one part only, and another
one where it is split. -/
theorem length_regionsOf (host : AdmaHost) (align : ℕ) (sgs : List SgEntry) :
    (regionsOf host align sgs).length + sgs.countP (fun sg => sg.OnePart) =
      2 * sgs.length + sgs.countP (fun sg => host.Splits sg.rest) := by
  induction sgs generalizing align with
  | nil => rfl
  | cons sg sgs ih =>
    have hparts := length_parts host sg.rest
    rw [List.countP_cons, List.countP_cons, List.length_cons]
    simp only [decide_eq_true_iff]
    by_cases hoff : admaOffset sg.dmaAddress = 0
    · have hnext := ih align
      have hone : sg.OnePart := .inl hoff
      have hsize : sg.rest.size ≠ 0 := by
        rw [sg.rest_of_eq hoff]
        exact sg.len_pos.ne'
      rw [if_neg hsize] at hparts
      rw [regionsOf_cons_of_eq hoff, List.length_append, if_pos hone]
      omega
    · have hnext := ih (align + 4)
      rw [regionsOf_cons_of_ne hoff, List.length_cons, List.length_append]
      by_cases hsize : sg.rest.size = 0
      · have hone : sg.OnePart := .inr hsize
        rw [if_pos hsize] at hparts
        rw [if_pos hone]
        omega
      · have hone : ¬sg.OnePart := fun h => h.elim hoff hsize
        rw [if_neg hsize] at hparts
        rw [if_neg hone]
        omega

/-- The length of a table without short entries. -/
theorem length_table_of_whole (write : Bool) (hwhole : ∀ sg ∈ sgs, sg.Whole) :
    (sdhciAdmaTablePre host write sgs).1.length + sgs.countP (fun sg => sg.OnePart) =
      2 * sgs.length + sgs.countP (fun sg => host.Splits sg.rest) +
        (if host.noEndattrInNopdesc then 0 else 1) := by
  have hregions := congrArg List.length
    (@region_preLoop host host.alignAddr sgs write host.aligned hwhole)
  rw [List.length_map, List.length_map] at hregions
  have hlength := length_regionsOf host host.alignAddr sgs
  rw [length_table, hregions]
  omega

/-- The table has room for the descriptors. -/
theorem length_le_iff_room (write : Bool) (hwhole : ∀ sg ∈ sgs, sg.Whole) :
    (sdhciAdmaTablePre host write sgs).1.length ≤ 2 * sgs.length + 1 ↔ Room host sgs := by
  have hlength := @length_table_of_whole host sgs write hwhole
  rw [Room]
  split_ifs at hlength ⊢ <;> omega

theorem Touched.tail_of_eq {x : ℕ} (hoff : admaOffset sg.dmaAddress = 0)
    (h : Touched align sgs x) : Touched align (sg :: sgs) x := by
  rcases h with ⟨sg', hsg', hx⟩ | hx
  · exact .inl ⟨sg', List.mem_cons_of_mem sg hsg', hx⟩
  · rw [slots, ← slotCount_cons_of_eq hoff] at hx
    exact .inr hx

theorem Touched.tail_of_ne {x : ℕ} (hoff : admaOffset sg.dmaAddress ≠ 0)
    (h : Touched (align + 4) sgs x) : Touched align (sg :: sgs) x := by
  rcases h with ⟨sg', hsg', hx⟩ | hx
  · exact .inl ⟨sg', List.mem_cons_of_mem sg hsg', hx⟩
  · exact .inr (mem_slots_cons hoff hx)

/-- The rest of an entry is in the entry. -/
theorem mem_region_of_mem_rest {x : ℕ} (hsg : sg.Whole) (hx : x ∈ sg.rest) : x ∈ sg.region := by
  have hle : admaOffset sg.dmaAddress ≤ sg.dmaLen := hsg
  have hlo : sg.dmaAddress + admaOffset sg.dmaAddress ≤ x := hx.1
  have hhi : x < sg.dmaAddress + admaOffset sg.dmaAddress +
      (sg.dmaLen - admaOffset sg.dmaAddress) := hx.2
  exact ⟨(Nat.le_add_right _ _).trans hlo, show x < sg.dmaAddress + sg.dmaLen by omega⟩

/-- The parts of the rest are in the entry. -/
theorem mem_region_of_mem_parts (hsg : sg.Whole) {r : Region} (hr : r ∈ host.parts sg.rest)
    {x : ℕ} (hx : x ∈ r) : x ∈ sg.region :=
  mem_region_of_mem_rest hsg ((cut_parts host sg.rest).mem r hr x hx)

/-- No byte outside the entries and the slots is moved. -/
theorem touched_regionsOf (hwhole : ∀ sg ∈ sgs, sg.Whole) :
    ∀ r ∈ regionsOf host align sgs, ∀ x ∈ r, Touched align sgs x := by
  induction sgs generalizing align with
  | nil => exact fun r hr => absurd hr List.not_mem_nil
  | cons sg sgs ih =>
    obtain ⟨hsg, hsgs⟩ := List.forall_mem_cons.mp hwhole
    have hparts : ∀ r ∈ host.parts sg.rest, ∀ x ∈ r, Touched align (sg :: sgs) x :=
      fun r hr x hx => .inl ⟨sg, List.mem_cons_self, mem_region_of_mem_parts hsg hr hx⟩
    by_cases hoff : admaOffset sg.dmaAddress = 0
    · rw [regionsOf_cons_of_eq hoff]
      exact List.forall_mem_append.mpr
        ⟨hparts, fun r hr x hx => (ih hsgs r hr x hx).tail_of_eq hoff⟩
    · rw [regionsOf_cons_of_ne hoff]
      refine List.forall_mem_cons.mpr ⟨fun x hx => .inr (mem_slots_head hoff hx), ?_⟩
      exact List.forall_mem_append.mpr
        ⟨hparts, fun r hr x hx => (ih hsgs r hr x hx).tail_of_ne hoff⟩

/-! ### The copies of a write -/

/-- The bytes of an entry, with the first ones apart. -/
theorem load_region (m : Buffer UInt8) (hsg : sg.Whole) :
    m.load sg.region.addr sg.region.size =
      m.load sg.dmaAddress (admaOffset sg.dmaAddress) ++ m.load sg.rest.addr sg.rest.size := by
  have hle : admaOffset sg.dmaAddress ≤ sg.dmaLen := hsg
  rw [SgEntry.rest, ← Buffer.load_add, Nat.add_sub_cancel' hle]
  rfl

/-- A write copies to slots only. -/
theorem target_preLoop (host : AdmaHost) (write : Bool) (align : ℕ) (sgs : List SgEntry) :
    ∀ c ∈ (preLoop host write align sgs).2, ∀ x ∈ c.target, x ∈ slots align sgs := by
  induction sgs generalizing align with
  | nil => exact fun c hc => absurd hc List.not_mem_nil
  | cons sg sgs ih =>
    by_cases hoff : admaOffset sg.dmaAddress = 0
    · rw [preLoop_cons_of_eq host write hoff, slots, slotCount_cons_of_eq hoff]
      exact ih align
    · rw [preLoop_cons_of_ne host write hoff]
      refine List.forall_mem_append.mpr ⟨fun c hc x hx => ?_, fun c hc x hx => ?_⟩
      · cases write with
        | true =>
          rw [List.mem_singleton.mp hc] at hx
          exact mem_slots_head hoff hx
        | false => exact absurd hc List.not_mem_nil
      · exact mem_slots_cons hoff (ih (align + 4) c hc x hx)

/-- A read copies nothing before. -/
theorem copies_preLoop_read (host : AdmaHost) (align : ℕ) (sgs : List SgEntry) :
    (preLoop host false align sgs).2 = [] := by
  induction sgs generalizing align with
  | nil => rfl
  | cons sg sgs ih =>
    by_cases hoff : admaOffset sg.dmaAddress = 0
    · rw [preLoop_cons_of_eq host false hoff, ih]
    · rw [preLoop_cons_of_ne host false hoff]
      exact ih (align + 4)

/-- What comes later in a write leaves the addresses of an entry as they are. -/
theorem Placed.runCopies_apply (hplaced : Placed host align (sg :: sgs))
    (hoff : admaOffset sg.dmaAddress ≠ 0) (m : Buffer UInt8) {x : ℕ}
    (hx : x ∈ sg.region ∨ x < align + 4) :
    runCopies m (preLoop host true (align + 4) sgs).2 x = m x := by
  refine runCopies_apply_of_notMem fun c hc hxc => ?_
  have hslots := target_preLoop host true (align + 4) sgs c hc x hxc
  rcases hx with hx | hx
  · exact hplaced.apart sg List.mem_cons_self x hx (mem_slots_cons hoff hslots)
  · exact absurd hslots.1 (Nat.not_le.mpr hx)

/-- **The copies of a write.** The controller finds the bytes of the entries. -/
theorem gather_copies_preLoop (m : Buffer UInt8) (hplaced : Placed host align sgs)
    (hwhole : ∀ sg ∈ sgs, sg.Whole) :
    gather (runCopies m (preLoop host true align sgs).2) (regionsOf host align sgs) =
      gather m (sgs.map SgEntry.region) := by
  induction sgs generalizing align m with
  | nil => rfl
  | cons sg sgs ih =>
    obtain ⟨hsg, hsgs⟩ := List.forall_mem_cons.mp hwhole
    rw [List.map_cons, gather_cons]
    by_cases hoff : admaOffset sg.dmaAddress = 0
    · rw [preLoop_cons_of_eq host true hoff, regionsOf_cons_of_eq hoff, gather_append,
        (cut_parts host sg.rest).gather, ih m (hplaced.tail_of_eq hoff) hsgs, sg.rest_of_eq hoff]
      congr 1
      refine load_region_congr fun x hx => runCopies_apply_of_notMem fun c hc hxc => ?_
      have hslots := target_preLoop host true align sgs c hc x hxc
      rw [slots, ← slotCount_cons_of_eq hoff] at hslots
      exact hplaced.apart sg List.mem_cons_self x hx hslots
    · rw [preLoop_cons_of_ne host true hoff, regionsOf_cons_of_ne hoff, gather_cons, gather_append,
        (cut_parts host sg.rest).gather]
      -- the first copy, before the other ones
      set c : Copy := ⟨align, sg.dmaAddress, admaOffset sg.dmaAddress⟩ with hc
      have hrun : runCopies m ([c] ++ (preLoop host true (align + 4) sgs).2) =
          runCopies (c.run m) (preLoop host true (align + 4) sgs).2 := rfl
      have hfirst : ∀ x ∈ (c.target : Region), x ∈ slots align (sg :: sgs) := fun x hx =>
        mem_slots_head hoff hx
      have hentry : ∀ sg' ∈ sg :: sgs, ∀ x ∈ sg'.region, c.run m x = m x := by
        intro sg' hsg' x hx
        exact c.run_apply_of_notMem m fun hxc => hplaced.apart sg' hsg' x hx (hfirst x hxc)
      have hslot : (runCopies (c.run m) (preLoop host true (align + 4) sgs).2).load align
          (admaOffset sg.dmaAddress) = m.load sg.dmaAddress (admaOffset sg.dmaAddress) := by
        rw [← c.load_run m]
        refine @load_region_congr _ _ _ c.target fun x hx => ?_
        have hlt := admaOffset_lt sg.dmaAddress
        have hhi : x < align + admaOffset sg.dmaAddress := hx.2
        exact hplaced.runCopies_apply hoff _ (.inr (by omega))
      have hrest : (runCopies (c.run m) (preLoop host true (align + 4) sgs).2).load
          sg.rest.addr sg.rest.size = m.load sg.rest.addr sg.rest.size := by
        refine load_region_congr fun x hx => ?_
        have hx' := mem_region_of_mem_rest hsg hx
        rw [hplaced.runCopies_apply hoff _ (.inl hx'), hentry sg List.mem_cons_self x hx']
      have hothers : gather (c.run m) (sgs.map SgEntry.region) =
          gather m (sgs.map SgEntry.region) := by
        refine gather_congr fun r hr x hx => ?_
        obtain ⟨sg', hsg', rfl⟩ := List.mem_map.mp hr
        exact hentry sg' (List.mem_cons_of_mem sg hsg') x hx
      rw [if_pos rfl, hrun, hslot, hrest, ih _ (hplaced.tail_of_ne hoff) hsgs, hothers,
        load_region m hsg, List.append_assoc]

/-! ### The copies of a read -/

theorem postLoop_cons_of_eq (hoff : admaOffset sg.dmaAddress = 0) :
    postLoop align (sg :: sgs) = postLoop align sgs := by
  rw [admaOffset_eq] at hoff
  rw [postLoop, and_three, if_neg (by omega)]

theorem postLoop_cons_of_ne (hoff : admaOffset sg.dmaAddress ≠ 0) :
    postLoop align (sg :: sgs) =
      ⟨sg.dmaAddress, align, admaOffset sg.dmaAddress⟩ :: postLoop (align + 4) sgs := by
  rw [admaOffset_eq] at hoff ⊢
  have hsize : 4 - sg.dmaAddress % 4 = (4 - sg.dmaAddress % 4) % 4 := by omega
  rw [postLoop, and_three, if_pos (by omega), ← hsize]

/-- The scan for entries that are not aligned changes nothing. -/
theorem sdhciAdmaTablePost_read (host : AdmaHost) (sgs : List SgEntry) :
    sdhciAdmaTablePost host false sgs = postLoop host.alignAddr sgs := by
  have hnone : ∀ align, (sgs.any fun sg => sg.dmaAddress &&& 3 ≠ 0) = false →
      postLoop align sgs = [] := by
    intro align hany
    induction sgs with
    | nil => rfl
    | cons sg sgs ih =>
      rw [List.any_cons, Bool.or_eq_false_iff] at hany
      obtain ⟨hsg, hsgs⟩ := hany
      rw [postLoop, if_neg (of_decide_eq_false hsg), ih hsgs]
  rw [sdhciAdmaTablePost]
  cases hany : sgs.any fun sg => sg.dmaAddress &&& 3 ≠ 0 with
  | true => rfl
  | false => rw [hnone _ hany]; rfl

/-- A read copies to entries only. -/
theorem target_postLoop (hwhole : ∀ sg ∈ sgs, sg.Whole) :
    ∀ c ∈ postLoop align sgs, ∀ x ∈ c.target, ∃ sg ∈ sgs, x ∈ sg.region := by
  induction sgs generalizing align with
  | nil => exact fun c hc => absurd hc List.not_mem_nil
  | cons sg sgs ih =>
    obtain ⟨hsg, hsgs⟩ := List.forall_mem_cons.mp hwhole
    have hothers : ∀ align, ∀ c ∈ postLoop align sgs, ∀ x ∈ c.target,
        ∃ sg' ∈ sg :: sgs, x ∈ sg'.region := by
      intro align c hc x hx
      obtain ⟨sg', hsg', hx'⟩ := @ih align hsgs c hc x hx
      exact ⟨sg', List.mem_cons_of_mem sg hsg', hx'⟩
    by_cases hoff : admaOffset sg.dmaAddress = 0
    · rw [postLoop_cons_of_eq hoff]
      exact hothers align
    · rw [postLoop_cons_of_ne hoff]
      refine List.forall_mem_cons.mpr ⟨fun x hx => ?_, hothers (align + 4)⟩
      have hle : admaOffset sg.dmaAddress ≤ sg.dmaLen := hsg
      have hhi : x < sg.dmaAddress + admaOffset sg.dmaAddress := hx.2
      exact ⟨sg, List.mem_cons_self, hx.1, show x < sg.dmaAddress + sg.dmaLen by omega⟩

/-- An entry has no byte in common with what the other entries and slots touch. -/
theorem Placed.notMem_of_touched (hplaced : Placed host align (sg :: sgs))
    (hapart : ((sg :: sgs).map SgEntry.region).Pairwise Region.Apart) {x : ℕ}
    (hx : x ∈ sg.region) :
    (∀ sg' ∈ sgs, x ∉ sg'.region) ∧ x ∉ slots align (sg :: sgs) := by
  refine ⟨fun sg' hsg' => ?_, hplaced.apart sg List.mem_cons_self x hx⟩
  exact (List.pairwise_cons.mp hapart).1 sg'.region (List.mem_map_of_mem hsg') x hx

/-- **The copies of a read.** The entries get the bytes that the controller has stored. -/
theorem gather_copies_postLoop (m : Buffer UInt8) (hplaced : Placed host align sgs)
    (hwhole : ∀ sg ∈ sgs, sg.Whole)
    (hapart : (sgs.map SgEntry.region).Pairwise Region.Apart) :
    gather (runCopies m (postLoop align sgs)) (sgs.map SgEntry.region) =
      gather m (regionsOf host align sgs) := by
  induction sgs generalizing align m with
  | nil => rfl
  | cons sg sgs ih =>
    obtain ⟨hsg, hsgs⟩ := List.forall_mem_cons.mp hwhole
    have hapart' := (List.pairwise_cons.mp hapart).2
    -- the copies of the other entries leave this one as it is
    have hkeep : ∀ (align : ℕ) (m : Buffer UInt8), ∀ x ∈ sg.region,
        runCopies m (postLoop align sgs) x = m x := by
      intro align' m x hx
      refine runCopies_apply_of_notMem fun c hc hxc => ?_
      obtain ⟨sg', hsg', hx'⟩ := target_postLoop hsgs c hc x hxc
      exact (hplaced.notMem_of_touched hapart hx).1 sg' hsg' hx'
    rw [List.map_cons, gather_cons]
    by_cases hoff : admaOffset sg.dmaAddress = 0
    · rw [postLoop_cons_of_eq hoff, regionsOf_cons_of_eq hoff, gather_append,
        (cut_parts host sg.rest).gather, sg.rest_of_eq hoff,
        ih m (hplaced.tail_of_eq hoff) hsgs hapart', load_region_congr (hkeep align m)]
    · rw [postLoop_cons_of_ne hoff, regionsOf_cons_of_ne hoff, gather_cons, gather_append,
        (cut_parts host sg.rest).gather]
      set c : Copy := ⟨sg.dmaAddress, align, admaOffset sg.dmaAddress⟩ with hc
      have hrun : runCopies m (c :: postLoop (align + 4) sgs) =
          runCopies (c.run m) (postLoop (align + 4) sgs) := rfl
      have hfirst : ∀ x ∈ c.target, x ∈ sg.region := by
        intro x hx
        have hle : admaOffset sg.dmaAddress ≤ sg.dmaLen := hsg
        have hhi : x < sg.dmaAddress + admaOffset sg.dmaAddress := hx.2
        exact ⟨hx.1, show x < sg.dmaAddress + sg.dmaLen by omega⟩
      have hrest : (c.run m).load sg.rest.addr sg.rest.size =
          m.load sg.rest.addr sg.rest.size := by
        refine load_region_congr fun x hx => c.run_apply_of_notMem m fun hxc => ?_
        exact absurd hxc.2 (Nat.not_lt.mpr hx.1)
      have hothers : gather (c.run m) (regionsOf host (align + 4) sgs) =
          gather m (regionsOf host (align + 4) sgs) := by
        refine gather_congr fun r hr x hx => c.run_apply_of_notMem m fun hxc => ?_
        obtain ⟨hentries, hslots⟩ := hplaced.notMem_of_touched hapart (hfirst x hxc)
        rcases touched_regionsOf hsgs r hr x hx with ⟨sg', hsg', hx'⟩ | hx'
        · exact hentries sg' hsg' hx'
        · exact hslots (mem_slots_cons hoff hx')
      rw [hrun, load_region_congr (hkeep (align + 4) (c.run m)), load_region _ hsg, hrest,
        ih _ (hplaced.tail_of_ne hoff) hsgs hapart', hothers, c.load_run m, List.append_assoc]

/-- The regions that are moved have no byte in common. -/
theorem pairwise_regionsOf (hplaced : Placed host align sgs) (hwhole : ∀ sg ∈ sgs, sg.Whole)
    (hapart : (sgs.map SgEntry.region).Pairwise Region.Apart) :
    (regionsOf host align sgs).Pairwise Region.Apart := by
  induction sgs generalizing align with
  | nil => exact List.Pairwise.nil
  | cons sg sgs ih =>
    obtain ⟨hsg, hsgs⟩ := List.forall_mem_cons.mp hwhole
    have hapart' := (List.pairwise_cons.mp hapart).2
    have hparts := (cut_parts host sg.rest).pairwise_apart
    by_cases hoff : admaOffset sg.dmaAddress = 0
    · rw [regionsOf_cons_of_eq hoff]
      refine List.pairwise_append.mpr
        ⟨hparts, ih (hplaced.tail_of_eq hoff) hsgs hapart', fun r hr r' hr' x hx hxr => ?_⟩
      obtain ⟨hentries, hslots⟩ :=
        hplaced.notMem_of_touched hapart (mem_region_of_mem_parts hsg hr hx)
      rw [slots, slotCount_cons_of_eq hoff] at hslots
      rcases touched_regionsOf hsgs r' hr' x hxr with ⟨sg', hsg', hx'⟩ | hx'
      · exact hentries sg' hsg' hx'
      · exact hslots hx'
    · rw [regionsOf_cons_of_ne hoff]
      refine List.pairwise_cons.mpr ⟨?_, List.pairwise_append.mpr
        ⟨hparts, ih (hplaced.tail_of_ne hoff) hsgs hapart', fun r hr r' hr' x hx hxr => ?_⟩⟩
      · -- the slot lies before the other ones and in no entry
        refine List.forall_mem_append.mpr ⟨fun r hr x hx hxr => ?_, fun r hr x hx hxr => ?_⟩
        · exact hplaced.apart sg List.mem_cons_self x (mem_region_of_mem_parts hsg hr hxr)
            (mem_slots_head hoff hx)
        · rcases touched_regionsOf hsgs r hr x hxr with ⟨sg', hsg', hx'⟩ | hx'
          · exact hplaced.apart sg' (List.mem_cons_of_mem sg hsg') x hx' (mem_slots_head hoff hx)
          · have hlt := admaOffset_lt sg.dmaAddress
            have hlo : align + 4 ≤ x := hx'.1
            have hhi : x < align + admaOffset sg.dmaAddress := hx.2
            omega
      · obtain ⟨hentries, hslots⟩ :=
          hplaced.notMem_of_touched hapart (mem_region_of_mem_parts hsg hr hx)
        rcases touched_regionsOf hsgs r' hr' x hxr with ⟨sg', hsg', hx'⟩ | hx'
        · exact hentries sg' hsg' hx'
        · exact hslots (mem_slots_cons hoff hx')

/-- As many bytes are moved as there are. -/
theorem sum_size_regionsOf (hwhole : ∀ sg ∈ sgs, sg.Whole) :
    ((regionsOf host align sgs).map Region.size).sum = totalLen sgs := by
  induction sgs generalizing align with
  | nil => rfl
  | cons sg sgs ih =>
    obtain ⟨hsg, hsgs⟩ := List.forall_mem_cons.mp hwhole
    have hle : admaOffset sg.dmaAddress ≤ sg.dmaLen := hsg
    have hrest : sg.rest.size = sg.dmaLen - admaOffset sg.dmaAddress := rfl
    rw [totalLen, List.map_cons, List.sum_cons, ← totalLen]
    by_cases hoff : admaOffset sg.dmaAddress = 0
    · rw [regionsOf_cons_of_eq hoff, List.map_append, List.sum_append,
        (cut_parts host sg.rest).sum_size, ih hsgs]
      omega
    · rw [regionsOf_cons_of_ne hoff, List.map_cons, List.sum_cons, List.map_append,
        List.sum_append, (cut_parts host sg.rest).sum_size, ih hsgs]
      dsimp only
      omega

/-! ### The addresses in the descriptors -/

theorem SgEntry.rest_addr_le (sg : SgEntry) : sg.rest.addr ≤ 2 ^ 32 := by
  have hlt := sg.addr_lt
  have heq := admaOffset_eq sg.dmaAddress
  rw [SgEntry.rest]
  dsimp only
  omega

theorem SgEntry.rest_size_le (sg : SgEntry) : sg.rest.size ≤ 65536 :=
  (Nat.sub_le _ _).trans sg.len_le

/-- Of a range with its last bytes above 4 GiB, only the last part can begin there. -/
theorem bounds_parts (hsize : 0 < sg.rest.size) :
    ∀ r ∈ host.parts sg.rest, r.addr ≤ 2 ^ 32 ∧ 0 < r.size ∧ r.size ≤ 65536 := by
  have haddr := sg.rest_addr_le
  have hle := sg.rest_size_le
  by_cases hsplit : host.Splits sg.rest
  · have hlt := lt_of_splits host hsplit
    rw [parts_of_splits host hsplit]
    rw [sz128M] at hlt ⊢
    refine List.forall_mem_cons.mpr ⟨⟨haddr, ?_, ?_⟩, List.forall_mem_singleton.mpr ?_⟩ <;>
      dsimp only <;> omega
  · rw [parts_of_not_splits host hsize.ne' hsplit]
    exact List.forall_mem_singleton.mpr ⟨haddr, hsize, hle⟩

/-- The descriptors have room for the addresses of the parts. -/
theorem reached_iff : sg.Reached host ↔ ∀ r ∈ host.parts sg.rest, r.addr < host.reach := by
  have haddr := sg.rest_addr_le
  have hle := sg.rest_size_le
  by_cases hsize : sg.rest.size = 0
  · rw [parts_of_eq host hsize]
    exact iff_of_true (.inr (.inl hsize)) fun r hr => absurd hr List.not_mem_nil
  · rw [SgEntry.Reached, AdmaHost.reach, or_iff_right hsize]
    by_cases hsplit : host.Splits sg.rest
    · have hlt := lt_of_splits host hsplit
      rw [parts_of_splits host hsplit, List.forall_mem_cons, List.forall_mem_singleton,
        forall_prop_of_true hsplit.1]
      rw [sz128M] at hlt ⊢
      split <;> simp only [*, true_or, true_iff, false_or, Bool.false_eq_true] <;> omega
    · rw [parts_of_not_splits host hsize hsplit, List.forall_mem_singleton]
      have hends : host.admaWriteDesc = true → sg.rest.addr < 2 ^ 32 →
          sg.rest.addr + sg.rest.size ≤ 2 ^ 32 := by
        intro hhook hlt
        have hsame : sg.rest.addr / sz128M = (sg.rest.addr + sg.rest.size - 1) / sz128M := by
          by_contra hne
          exact hsplit ⟨hhook, hsize, hne⟩
        rw [sz128M] at hsame
        omega
      split
      · exact iff_of_true (.inl ‹_›) (by omega)
      · rw [or_iff_right ‹_›]
        exact ⟨fun h => h.1, fun h => ⟨h, fun hhook => hends hhook h⟩⟩

theorem mem_regionsOf_of_mem_parts (hsg : sg ∈ sgs) {r : Region} (hr : r ∈ host.parts sg.rest) :
    r ∈ regionsOf host align sgs := by
  induction sgs generalizing align with
  | nil => exact absurd hsg List.not_mem_nil
  | cons sg' sgs ih =>
    by_cases hoff : admaOffset sg'.dmaAddress = 0
    · rw [regionsOf_cons_of_eq hoff]
      rcases List.mem_cons.mp hsg with rfl | hsg
      · exact List.mem_append_left _ hr
      · exact List.mem_append_right _ (ih hsg)
    · rw [regionsOf_cons_of_ne hoff]
      rcases List.mem_cons.mp hsg with rfl | hsg
      · exact List.mem_cons_of_mem _ (List.mem_append_left _ hr)
      · exact List.mem_cons_of_mem _ (List.mem_append_right _ (ih hsg))

/-- What holds of the slots and of the parts of the entries holds of all regions. -/
theorem forall_mem_regionsOf {P : Region → Prop} (hplaced : Placed host align sgs)
    (hslot : ∀ addr n, addr + n ≤ host.reach → 0 < n → n < 4 → P ⟨addr, n⟩)
    (hparts : ∀ sg ∈ sgs, ∀ r ∈ host.parts sg.rest, P r) : ∀ r ∈ regionsOf host align sgs, P r := by
  induction sgs generalizing align with
  | nil => exact fun r hr => absurd hr List.not_mem_nil
  | cons sg sgs ih =>
    obtain ⟨hsg, hsgs⟩ := List.forall_mem_cons.mp hparts
    by_cases hoff : admaOffset sg.dmaAddress = 0
    · rw [regionsOf_cons_of_eq hoff]
      exact List.forall_mem_append.mpr ⟨hsg, ih (hplaced.tail_of_eq hoff) hsgs⟩
    · have hlt := admaOffset_lt sg.dmaAddress
      have hfits := hplaced.fits
      rw [slotCount_cons_of_ne hoff] at hfits
      rw [regionsOf_cons_of_ne hoff]
      exact List.forall_mem_cons.mpr ⟨hslot _ _ (by omega) (Nat.pos_of_ne_zero hoff) hlt,
        List.forall_mem_append.mpr ⟨hsg, ih (hplaced.tail_of_ne hoff) hsgs⟩⟩

/-- Where the descriptors have room for the addresses, the controller takes the regions for what
they are. -/
theorem map_seen_regionsOf (hplaced : Placed host align sgs)
    (hreached : ∀ sg ∈ sgs, sg.Reached host) :
    (regionsOf host align sgs).map host.seen = regionsOf host align sgs := by
  have hlt : ∀ r ∈ regionsOf host align sgs, r.addr < host.reach :=
    forall_mem_regionsOf hplaced (fun addr n hle hpos _ => show addr < host.reach by omega)
      fun sg hsg => reached_iff.mp (hreached sg hsg)
  refine (List.map_congr_left fun r hr => ?_).trans (List.map_id _)
  rw [AdmaHost.seen, Nat.mod_eq_of_lt (hlt r hr)]
  rfl

/-! ### Addresses that are cut off -/

/-- A write copies below what the descriptors have room for, if that is 4 GiB. -/
theorem copies_preLoop_lt (hreach : host.reach = 2 ^ 32) (hplaced : Placed host align sgs) :
    ∀ c ∈ (preLoop host true align sgs).2, ∀ i < c.size, c.src + i < 2 ^ 32 ∧
      c.dst + i < 2 ^ 32 := by
  induction sgs generalizing align with
  | nil => exact fun c hc => absurd hc List.not_mem_nil
  | cons sg sgs ih =>
    by_cases hoff : admaOffset sg.dmaAddress = 0
    · rw [preLoop_cons_of_eq host true hoff]
      exact ih (hplaced.tail_of_eq hoff)
    · have haddr : sg.dmaAddress + admaOffset sg.dmaAddress ≤ 2 ^ 32 := sg.rest_addr_le
      have hlt := admaOffset_lt sg.dmaAddress
      have hfits := hplaced.fits
      rw [slotCount_cons_of_ne hoff, hreach] at hfits
      rw [preLoop_cons_of_ne host true hoff, if_pos rfl]
      refine List.forall_mem_append.mpr
        ⟨List.forall_mem_singleton.mpr fun i hi => ?_, ih (hplaced.tail_of_ne hoff)⟩
      dsimp only at hi ⊢
      omega

/-- A region that begins at 4 GiB is taken for one at zero. -/
theorem sizeFrom_seen (hreach : host.reach = 2 ^ 32) {r : Region} (haddr : r.addr ≤ 2 ^ 32)
    (hpos : 0 < r.size) (hle : r.size ≤ 65536) :
    (host.seen r).sizeFrom (2 ^ 32) ≤ r.sizeFrom (2 ^ 32) ∧
      (¬r.addr < 2 ^ 32 → (host.seen r).sizeFrom (2 ^ 32) < r.sizeFrom (2 ^ 32)) := by
  rw [AdmaHost.seen, Region.sizeFrom, Region.sizeFrom, hreach]
  dsimp only
  omega

/-- **Addresses of 32 bits.** Of a memory whose values tell apart what is below 4 GiB, a write sends
the bytes of the entries only if no part begins at 4 GiB or above. -/
theorem reached_of_gather (hreach : host.reach = 2 ^ 32) (hplaced : Placed host align sgs)
    (hwhole : ∀ sg ∈ sgs, sg.Whole)
    (hsent : ∀ mem : Buffer UInt8,
      gather (runCopies mem (preLoop host true align sgs).2)
          ((regionsOf host align sgs).map host.seen) = gather mem (sgs.map SgEntry.region)) :
    ∀ sg ∈ sgs, sg.Reached host := by
  let mem : Buffer UInt8 := fun x => if 2 ^ 32 ≤ x then 1 else 0
  have hcopies : runCopies mem (preLoop host true align sgs).2 = mem := by
    refine runCopies_eq_self fun c hc i hi => ?_
    obtain ⟨hsrc, hdst⟩ := copies_preLoop_lt hreach hplaced c hc i hi
    exact (if_neg (Nat.not_le.mpr hsrc)).trans (if_neg (Nat.not_le.mpr hdst)).symm
  have hsame : gather mem ((regionsOf host align sgs).map host.seen) =
      gather mem (regionsOf host align sgs) := by
    have hall := gather_copies_preLoop mem hplaced hwhole
    rw [hcopies] at hall
    have hseen := hsent mem
    rw [hcopies] at hseen
    rw [hseen, hall]
  have hcount := congrArg (List.count 1) hsame
  rw [count_gather (by decide), count_gather (by decide), List.map_map] at hcount
  have hbounds : ∀ r ∈ regionsOf host align sgs,
      r.addr ≤ 2 ^ 32 ∧ 0 < r.size ∧ r.size ≤ 65536 := by
    refine forall_mem_regionsOf hplaced (fun addr n hle hpos hlt => ?_) fun sg _ r hr => ?_
    · rw [hreach] at hle
      dsimp only
      omega
    · have hsize : 0 < sg.rest.size := by
        refine Nat.pos_of_ne_zero fun hzero => ?_
        rw [parts_of_eq host hzero] at hr
        exact absurd hr List.not_mem_nil
      exact bounds_parts hsize r hr
  intro sg hsg
  rw [reached_iff, hreach]
  intro r hr
  by_contra hlt
  have hmem : r ∈ regionsOf host align sgs := mem_regionsOf_of_mem_parts hsg hr
  refine hcount.not_lt (List.sum_lt_sum _ _ (fun s hs => ?_) ⟨r, hmem, ?_⟩)
  · obtain ⟨haddr, hpos, hle⟩ := hbounds s hs
    exact (sizeFrom_seen hreach haddr hpos hle).1
  · obtain ⟨haddr, hpos, hle⟩ := hbounds r hmem
    exact (sizeFrom_seen hreach haddr hpos hle).2 hlt

end Regions

/-! ### The whole request -/

section Request

variable {host : AdmaHost} {sgs : List SgEntry}

/-- **The table is exact** if no entry is short, the descriptors have room for the addresses, and
the table for the descriptors. -/
theorem movesExactly_of_whole (hne : sgs ≠ []) (hplaced : Placed host host.alignAddr sgs)
    (hwhole : ∀ sg ∈ sgs, sg.Whole) (hreached : ∀ sg ∈ sgs, sg.Reached host)
    (hroom : Room host sgs) : MovesExactly host sgs := by
  have hrun : ∀ write, admaRun (sdhciAdmaTablePre host write sgs).1 =
      some (regionsOf host host.alignAddr sgs) := by
    intro write
    rw [admaRun_table host write hne, region_preLoop write host.aligned hwhole,
      map_seen_regionsOf hplaced hreached]
  have hsum := @sum_size_regionsOf host host.alignAddr sgs hwhole
  have htouched := @touched_regionsOf host host.alignAddr sgs hwhole
  refine ⟨fun write => (length_le_iff_room write hwhole).mpr hroom,
    fun write => aligned_table host write sgs, fun write => ⟨_, hrun write, hsum, htouched⟩,
    fun mem => ⟨_, hrun true, ?_, fun x hx => ?_⟩,
    fun data mem => ⟨_, hrun false, fun hapart => ?_, fun x hx => ?_⟩⟩
  · rw [copies_table]
    exact gather_copies_preLoop mem hplaced hwhole
  · rw [copies_table]
    exact runCopies_apply_of_notMem fun c hc hxc =>
      hx (target_preLoop host true host.alignAddr sgs c hc x hxc)
  · rw [admaRead, sdhciAdmaTablePost_read, gather_copies_postLoop _ hplaced hwhole hapart,
      gather_scatter _ _ (pairwise_regionsOf hplaced hwhole hapart), hsum]
  · rw [admaRead, sdhciAdmaTablePost_read, copies_table, copies_preLoop_read]
    rw [runCopies_apply_of_notMem fun c hc hxc =>
        hx (.inl (target_postLoop hwhole c hc x hxc)),
      scatter_apply_of_notMem data fun r hr hxr => hx (htouched r hr x hxr)]
    rfl

theorem MovesExactly.whole (h : MovesExactly host sgs) (hne : sgs ≠ []) :
    ∀ sg ∈ sgs, sg.Whole := by
  intro sg hsg
  by_contra hshort
  obtain ⟨regions, hrun, hsum, -⟩ := h.moves true
  rw [admaRun_table host true hne, Option.some_inj] at hrun
  have hle := le_sum_size_descs host true host.alignAddr sgs
  rw [hrun, hsum] at hle
  have hcount : 0 < sgs.countP (fun sg => sg.dmaLen < admaOffset sg.dmaAddress) :=
    List.countP_pos_iff.mpr ⟨sg, hsg, decide_eq_true (Nat.not_le.mp hshort)⟩
  omega

theorem MovesExactly.reached (h : MovesExactly host sgs) (hne : sgs ≠ [])
    (hplaced : Placed host host.alignAddr sgs) : ∀ sg ∈ sgs, sg.Reached host := by
  have hwhole := h.whole hne
  cases hdma : host.use64BitDma with
  | true => exact fun sg _ => .inl hdma
  | false =>
    have hreach : host.reach = 2 ^ 32 := by
      rw [AdmaHost.reach, hdma]
      rfl
    refine reached_of_gather hreach hplaced hwhole fun mem => ?_
    obtain ⟨regions, hrun, hsent, -⟩ := h.write mem
    rw [admaRun_table host true hne, Option.some_inj, region_preLoop true host.aligned hwhole]
      at hrun
    rwa [← hrun, copies_table] at hsent

/-- **The table is exact** if and only if no entry is shorter than its bytes up to the next multiple
of four, the descriptors have room for the addresses, and at most as many entries have a descriptor
too much as have one less. -/
theorem movesExactly_iff (hne : sgs ≠ []) (hplaced : Placed host host.alignAddr sgs) :
    MovesExactly host sgs ↔
      (∀ sg ∈ sgs, admaOffset sg.dmaAddress ≤ sg.dmaLen) ∧ (∀ sg ∈ sgs, sg.Reached host) ∧
        Room host sgs := by
  constructor
  · intro h
    have hwhole := h.whole hne
    exact ⟨hwhole, h.reached hne hplaced, (length_le_iff_room true hwhole).mp (h.length_le true)⟩
  · rintro ⟨hwhole, hreached, hroom⟩
    exact movesExactly_of_whole hne hplaced hwhole hreached hroom

end Request

/-- An entry of one byte, three bytes before a multiple of four: the controller moves 65536 bytes
more than there are. -/
theorem movesExactly_short :
    Placed ⟨4096, false, false, false, rfl⟩ 4096 [⟨1, 1, by decide, by decide, by decide⟩] ∧
      ¬MovesExactly ⟨4096, false, false, false, rfl⟩
        [⟨1, 1, by decide, by decide, by decide⟩] := by
  constructor
  · refine ⟨by decide, fun sg hsg x hx hslots => ?_⟩
    obtain rfl := List.mem_singleton.mp hsg
    have hlt : x < 2 := hx.2
    have hge : 4096 ≤ x := hslots.1
    omega
  · intro h
    have hwhole := h.whole (List.cons_ne_nil _ _) _ List.mem_cons_self
    exact absurd hwhole (by decide : ¬admaOffset 1 ≤ 1)

/-- An entry of 512 bytes that goes across a multiple of 128 MiB, with the first bytes in a slot and
the others in two parts: there is room for the three descriptors, the last of which has the end
marker. -/
theorem movesExactly_whole :
    MovesExactly ⟨4096, false, true, true, rfl⟩
      [⟨0x7ffff01, 512, by decide, by decide, by decide⟩] := by
  refine (movesExactly_iff (List.cons_ne_nil _ _) ⟨by decide, fun sg hsg x hx hslots => ?_⟩).mpr
    ⟨List.forall_mem_singleton.mpr (by decide),
      List.forall_mem_singleton.mpr (.inr (.inr (by decide))), by decide⟩
  obtain rfl := List.mem_singleton.mp hsg
  have hge : 0x7ffff01 ≤ x := hx.1
  have hlt : x < 4100 := hslots.2
  omega

/-- With a descriptor for the end marker, the same table has one descriptor too much. -/
example : (sdhciAdmaTablePre ⟨4096, false, false, true, rfl⟩ true
    [⟨0x7ffff01, 512, by decide, by decide, by decide⟩]).1.length = 4 := by decide

end LinuxDriver.Sdhci
