import LinuxDriver.Buffer

/-!
# Kernel interface of the drivers

The constants and environment choices that the drivers share: error numbers, `ioctl` commands, poll
flags, scheduler states of a task, the outcome of a copy between kernel and user memory, and the
direction of a transfer to or from a block device.

A failed `copy_from_user` may have overwritten any part of its destination before it failed, so
its outcome carries the bytes it left there. A failed `copy_to_user` changes user memory only,
and what a failed call left there is not looked at.

## Main definitions

* `eagain`, `ebusy`, `eexist`, `efault`, `eilseq`, `einprogress`, `einval`, `eio`, `enodev`,
  `enoent`, `enomedium`, `enomem`, `eopnotsupp`, `erange`, `erestartsys`, `etimedout`.
* `pollin`, `pollout`, `pollrdnorm`, `pollwrnorm`.
* `TaskState`, `Direction`, `CopyOutcome`, `UserCall`.
* `DataDir`.
-/

namespace LinuxDriver

/-! ### Error numbers, commands and poll flags -/

def enoent : ℤ := 2
def eio : ℤ := 5
def eagain : ℤ := 11
def enomem : ℤ := 12
def efault : ℤ := 14
def ebusy : ℤ := 16
def eexist : ℤ := 17
def enodev : ℤ := 19
def einval : ℤ := 22
def erange : ℤ := 34
def eilseq : ℤ := 84
def eopnotsupp : ℤ := 95
def etimedout : ℤ := 110
def einprogress : ℤ := 115
def enomedium : ℤ := 123
def erestartsys : ℤ := 512

/-- `FIFO_CLEAR`, the command of `globalfifo_ioctl`. -/
def fifoClear : ℕ := 1

def pollin : ℕ := 0x1
def pollout : ℕ := 0x4
def pollrdnorm : ℕ := 0x40
def pollwrnorm : ℕ := 0x100

/-! ### Tasks and user memory -/

/-- The states in which the drivers put the calling task. -/
inductive TaskState
  | running
  | interruptible
  deriving DecidableEq

/-- The two calls that may wait. A reader waits on `r_wait`, a writer on `w_wait`. -/
inductive Direction
  | read
  | write
  deriving DecidableEq

/-- The other direction: a read makes space for writers, a write makes bytes for readers. -/
def Direction.other : Direction → Direction
  | .read => .write
  | .write => .read

/-- The outcome of a copy between kernel and user memory. A failed copy into the kernel leaves
`junk` at its destination. -/
inductive CopyOutcome
  | copied
  | faulted (junk : List UInt8)
  deriving DecidableEq

/-- What a `read` or a `write` is called with: the `O_NONBLOCK` flag of the file, the count, the
user buffer, and what will happen to the copy. -/
structure UserCall where
  nonblock : Bool
  count : ℕ
  buf : Buffer UInt8
  copy : CopyOutcome

/-! ### Block devices -/

/-- `READ` and `WRITE`, the direction of a bio or of a request. -/
inductive DataDir
  | read
  | write
  deriving DecidableEq

end LinuxDriver
