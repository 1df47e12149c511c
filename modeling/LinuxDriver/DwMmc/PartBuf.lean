import LinuxDriver.Buffer
import LinuxDriver.LittleEndian

/-!
# The partial word of a dw_mmc host

The FIFO of the host is read and written in words of 2, 4 or 8 bytes. The bytes of a word that a
call has no use for, or has not enough of, stay in `part_buf` until the next call.

## Main definitions

* `DwMci`: the fields of the host about `part_buf`.
* `DataWidth`: the widths that `dw_mci_probe` finds.
* `dwMciPullPartBytes`, `dwMciPullFinalBytes`: taking bytes out of `part_buf`.
* `dwMciPushPartBytes`, `dwMciSetPartBytes`: putting bytes into `part_buf`.
* `DwMci.part`: the bytes that are in `part_buf`.

## Main results

* `alignedLen_eq`: a round of the loop for buffers that are not aligned.
-/

namespace LinuxDriver.DwMmc

/-- The fields of `struct dw_mci` about the bytes of a word. -/
structure DwMci where
  partBufStart : ℕ
  partBufCount : ℕ
  partBuf : Buffer UInt8

/-- The data widths of the host. -/
inductive DataWidth
  | bits16
  | bits32
  | bits64
  deriving DecidableEq

/-- `data_shift`, as `dw_mci_probe` sets it. -/
def DataWidth.dataShift : DataWidth → ℕ
  | bits16 => 1
  | bits32 => 2
  | bits64 => 3

/-- The bytes of a word, `1 << host->data_shift`. -/
def DataWidth.bytes (width : DataWidth) : ℕ := 1 <<< width.dataShift

theorem DataWidth.bytes_pos (width : DataWidth) : 0 < width.bytes := by
  cases width <;> exact Nat.succ_pos _

/-- `sizeof(aligned_buf)`, which is `u16[64]`, `u32[32]` or `u64[16]`. -/
def alignedBufSize : ℕ := 128

theorem DataWidth.bytes_dvd (width : DataWidth) : width.bytes ∣ alignedBufSize := by
  cases width
  · exact ⟨64, rfl⟩
  · exact ⟨32, rfl⟩
  · exact ⟨16, rfl⟩

/-- The bytes that go through `aligned_buf` in a round are whole words, and the loop goes on with
the other words. -/
theorem alignedLen_eq {w cnt : ℕ} (hw : 0 < w) (hdvd : w ∣ alignedBufSize) (hle : w ≤ cnt) :
    ∃ items, min (cnt - cnt % w) alignedBufSize = w * items ∧ 0 < w * items ∧ w * items ≤ cnt ∧
      cnt / w = items + (cnt - w * items) / w := by
  have hmod : cnt % w < w := Nat.mod_lt _ hw
  have hsize : 0 < alignedBufSize := Nat.succ_pos 127
  have hlen : w ∣ min (cnt - cnt % w) alignedBufSize := by
    rcases min_choice (cnt - cnt % w) alignedBufSize with h | h
    · rw [h]
      exact Nat.dvd_sub_mod cnt
    · rw [h]
      exact hdvd
  obtain ⟨items, hitems⟩ := hlen
  have hlecnt : w * items ≤ cnt := by omega
  refine ⟨items, hitems, by omega, hlecnt, ?_⟩
  have hle' : items ≤ cnt / w := by
    rw [Nat.le_div_iff_mul_le hw, Nat.mul_comm]
    exact hlecnt
  rw [Nat.sub_mul_div, Nat.add_sub_cancel' hle']

/-- `dw_mci_submit_data`: a programmed transfer begins with no bytes. -/
def dwMciSubmitData (host : DwMci) : DwMci := { host with partBufStart := 0, partBufCount := 0 }

/-- `dw_mci_pull_part_bytes`: the bytes that it stores, and the host. -/
def dwMciPullPartBytes (host : DwMci) (cnt : ℕ) : List UInt8 × DwMci :=
  let cnt := min cnt host.partBufCount
  if cnt = 0 then ([], host)
  else
    (host.partBuf.load host.partBufStart cnt,
      { host with
        partBufCount := host.partBufCount - cnt
        partBufStart := host.partBufStart + cnt })

/-- `dw_mci_pull_final_bytes`: the bytes that it stores, and the host. -/
def dwMciPullFinalBytes (w : ℕ) (host : DwMci) (cnt : ℕ) : List UInt8 × DwMci :=
  (host.partBuf.load 0 cnt, { host with partBufStart := cnt, partBufCount := w - cnt })

/-- `dw_mci_push_part_bytes`: the number of bytes that it takes, and the host. -/
def dwMciPushPartBytes (w : ℕ) (host : DwMci) (buf : List UInt8) : ℕ × DwMci :=
  let cnt := min buf.length (w - host.partBufCount)
  (cnt,
    { host with
      partBuf := host.partBuf.store host.partBufCount (buf.take cnt)
      partBufCount := host.partBufCount + cnt })

/-- `dw_mci_set_part_bytes`. -/
def dwMciSetPartBytes (host : DwMci) (buf : List UInt8) : DwMci :=
  { host with partBuf := host.partBuf.store 0 buf, partBufCount := buf.length }

/-- The bytes that wait in `part_buf`. A push fills it from the start on, a pull empties it from
`part_buf_start` on. -/
def DwMci.part (host : DwMci) (start : ℕ) : List UInt8 := host.partBuf.load start host.partBufCount

@[simp] theorem DwMci.length_part (host : DwMci) (start : ℕ) :
    (host.part start).length = host.partBufCount :=
  Buffer.length_load _ _ _

theorem DwMci.part_eq_nil {host : DwMci} (h : host.partBufCount = 0) (start : ℕ) :
    host.part start = [] := by
  rw [DwMci.part, h, Buffer.load_zero]

end LinuxDriver.DwMmc
