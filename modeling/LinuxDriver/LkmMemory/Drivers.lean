import LinuxDriver.Fifo.Machine

/-!
# The FIFO drivers of `lkm_memory`

The driver `lkm_memory` comes in several stages. `poll/hello.c` has blocking `read` and `write`
and `poll`; `async/hello.c` adds asynchronous notification, and `component/timer.c` adds a timer,
with the same `read`, `write` and `poll` as `async/hello.c`. The stages have the same fields and
the same `read` and `poll`, and differ in what follows a successful write.

## Main definitions

* `lkmMemSize`, `lkmLayout`, `lkmMemPoll`.
* `lkmMemRead`, `lkmPollWrite`, `lkmAsyncWrite`: the exits of the blocking calls.
* `lkmPollDriver`, `lkmAsyncDriver`.
-/

namespace LinuxDriver

/-- `LKM_MEM_SIZE` -/
def lkmMemSize : ℕ := 1024

/-- `ushort len` and `unsigned int count`. -/
def lkmLayout : FifoLayout where
  size := lkmMemSize
  lenBits := 16
  countBits := 32
  size_lt_len := by norm_num [lkmMemSize]
  size_lt_int := by norm_num [lkmMemSize]
  le_countBits := le_rfl

/-- The mask of `lkm_mem_poll`. The second test is inside the braces of the first. -/
def lkmMemPoll (len : ℕ) : ℕ :=
  if len ≠ 0 then
    let imask := pollin ||| pollrdnorm
    if len ≠ lkmMemSize then imask ||| (pollout ||| pollrdnorm) else imask
  else 0

/-- The exits of `lkm_mem_read`: `exit_2` sets the state, `exit` removes the entry and unlocks. -/
def lkmMemRead : CallCode where
  rearms := true
  onAgain := [.removeWaitQueue .read, .mutexUnlock]
  onSignal := [.setRunning, .removeWaitQueue .read, .mutexUnlock]
  onFault := [.setRunning, .removeWaitQueue .read, .mutexUnlock]
  onDone := [.setRunning, .removeWaitQueue .read, .mutexUnlock]
  result := id

/-- The exits of `lkm_mem_write` in `async/hello.c`, where a successful write falls through to the
labels. -/
def lkmAsyncWrite : CallCode where
  rearms := true
  onAgain := [.removeWaitQueue .write, .mutexUnlock]
  onSignal := [.setRunning, .removeWaitQueue .write, .mutexUnlock]
  onFault := [.setRunning, .removeWaitQueue .write, .mutexUnlock]
  onDone := [.setRunning, .removeWaitQueue .write, .mutexUnlock]
  result := id

/-- The exits of `lkm_mem_write` in `poll/hello.c`, where a successful write is followed by
`return ret`. -/
def lkmPollWrite : CallCode where
  rearms := true
  onAgain := [.removeWaitQueue .write, .mutexUnlock]
  onSignal := [.setRunning, .removeWaitQueue .write, .mutexUnlock]
  onFault := [.setRunning, .removeWaitQueue .write, .mutexUnlock]
  onDone := []
  result := id

/-- The driver of `poll/hello.c`. -/
def lkmPollDriver : FifoDriver where
  layout := lkmLayout
  code
    | .read => lkmMemRead
    | .write => lkmPollWrite
  pollMask := lkmMemPoll
  hasIoctl := false

/-- The driver of `async/hello.c` and `component/timer.c`. -/
def lkmAsyncDriver : FifoDriver where
  layout := lkmLayout
  code
    | .read => lkmMemRead
    | .write => lkmAsyncWrite
  pollMask := lkmMemPoll
  hasIoctl := false

end LinuxDriver
