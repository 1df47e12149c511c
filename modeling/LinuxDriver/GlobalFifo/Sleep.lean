import LinuxDriver.Fifo.Wakeup
import LinuxDriver.GlobalFifo.Stream

/-!
# Lost wake-ups of the globalfifo drivers

The driver `globalfifo` comes as `globalfifo/globalfifo.c` and as `misc/plat-misc.c`. In both the
labels are balanced, and a read wakes the writers and a write the readers. `FIFO_CLEAR` makes space
as a read does, but wakes nobody: a writer asleep on the full device sleeps on.

## Main definitions

* `globalfifoDriver`, `platMiscDriver`.
* `GlobalFifo.NobodyForgotten`: no lost wake-up, as a statement about `current_len`.

## Main results

* `globalfifo_nobodyForgotten`: no lost wake-up while `FIFO_CLEAR` meets no sleeping writer.
* `globalfifo_forgotten_writer`: a run that forgets a writer.
-/

namespace LinuxDriver

/-! ### The drivers -/

/-- The mask of `globalfifo_poll`. -/
def globalfifoPoll (len : ℕ) : ℕ :=
  (if len ≠ 0 then pollin ||| pollrdnorm else 0) |||
    (if len ≠ globalfifoSize then pollout ||| pollwrnorm else 0)

/-- The exits of a blocking call whose `remove_wait_queue` is passed the queue of `head`: `out`
unlocks, `out2` removes the entry and sets the state. -/
def globalfifoExits (head : Direction) (result : ℤ → ℤ) : CallCode where
  rearms := false
  onAgain := [.mutexUnlock, .removeWaitQueue head, .setRunning]
  onSignal := [.removeWaitQueue head, .setRunning]
  onFault := [.mutexUnlock, .removeWaitQueue head, .setRunning]
  onDone := [.mutexUnlock, .removeWaitQueue head, .setRunning]
  result := result

/-- The driver of `globalfifo/globalfifo.c`. Its read passes `w_wait` to `remove_wait_queue`. -/
def globalfifoDriver : FifoDriver where
  layout := globalfifoLayout
  code
    | .read => globalfifoExits .write id
    | .write => globalfifoExits .write id
  pollMask := globalfifoPoll
  hasIoctl := true

/-- The driver of `misc/plat-misc.c`. Its write ends with `return 0`. -/
def platMiscDriver : FifoDriver where
  layout := globalfifoLayout
  code
    | .read => globalfifoExits .read id
    | .write => globalfifoExits .write fun _ => 0
  pollMask := globalfifoPoll
  hasIoctl := true

/-- Both drivers. -/
def globalfifoDrivers : List FifoDriver := [globalfifoDriver, platMiscDriver]

theorem globalfifoExits_balanced (head : Direction) (result : ℤ → ℤ) :
    ExitLabel.Balanced 1 (globalfifoExits head result).onAgain ∧
    ExitLabel.Balanced 0 (globalfifoExits head result).onSignal ∧
    ExitLabel.Balanced 1 (globalfifoExits head result).onFault ∧
    ExitLabel.Balanced 1 (globalfifoExits head result).onDone :=
  ⟨⟨rfl, rfl⟩, ⟨rfl, rfl⟩, ⟨rfl, rfl⟩, ⟨rfl, rfl⟩⟩

theorem balanced_of_mem {D : FifoDriver} (hD : D ∈ globalfifoDrivers) : D.Balanced := by
  have hcode : ∀ d, ∃ head result, D.code d = globalfifoExits head result := by
    intro d
    obtain rfl | rfl : D = globalfifoDriver ∨ D = platMiscDriver := by
      simpa [globalfifoDrivers] using hD
    · cases d <;> exact ⟨_, _, rfl⟩
    · cases d <;> exact ⟨_, _, rfl⟩
  constructor <;>
  · intro d
    obtain ⟨head, result, hd⟩ := hcode d
    simp only [hd, globalfifoExits_balanced]

theorem layout_of_mem {D : FifoDriver} (hD : D ∈ globalfifoDrivers) :
    D.layout = globalfifoLayout := by
  obtain rfl | rfl : D = globalfifoDriver ∨ D = platMiscDriver := by
    simpa [globalfifoDrivers] using hD
  · rfl
  · rfl

namespace GlobalFifo

open Fifo

/-- When the mutex is free, no reader is asleep, and not yet made runnable, while there are bytes
to read, and no writer while there is space. -/
structure NobodyForgotten (s : Fifo.State) : Prop where
  reader : s.mutex = false → ∀ t c, s.pc t = .asleep .read c → s.taskState t = .interruptible →
    ¬0 < s.dev.len
  writer : s.mutex = false → ∀ t c, s.pc t = .asleep .write c → s.taskState t = .interruptible →
    ¬s.dev.len < globalfifoSize

theorem nobodyForgotten_of_noLostWakeup {D : FifoDriver} (hD : D ∈ globalfifoDrivers)
    {s : Fifo.State} (hs : NoLostWakeup D s) : NobodyForgotten s where
  reader hfree t c hpc hstate := by
    have hempty : s.dev.len = 0 := hs hfree t .read c hpc hstate
    omega
  writer hfree t c hpc hstate := by
    have hfull : s.dev.len = D.layout.size := hs hfree t .write c hpc hstate
    have hsize : D.layout.size = globalfifoSize := by rw [layout_of_mem hD]; rfl
    omega

end GlobalFifo

open Fifo GlobalFifo

/-- **No lost wake-up in globalfifo.** In every run of either driver in which `FIFO_CLEAR` empties
the device only while the tasks on `w_wait` are running or have a signal pending, no task is
forgotten in any state. -/
theorem globalfifo_nobodyForgotten {D : FifoDriver} (hD : D ∈ globalfifoDrivers)
    {as : List Fifo.Action} (hC : D.machine.Obeys ClearWithoutWriters D.machine.init as) :
    D.machine.Always NobodyForgotten D.machine.init as :=
  (noLostWakeup_of_obeys (balanced_of_mem hD) hC).mono fun _ hs =>
    nobodyForgotten_of_noLostWakeup hD hs

/-- A reader falls asleep, the device is cleared, and a byte is written and wakes the reader. -/
def globalfifoWokenRun : List Fifo.Action :=
  .enter 0 (.blocking .read ⟨false, 1, fun _ => 0, .copied⟩) :: List.replicate 6 (.step 0) ++
    .enter 2 (.ioctl fifoClear) :: List.replicate 4 (.step 2) ++
    .enter 1 (.blocking .write ⟨false, 1, fun _ => 7, .copied⟩) :: List.replicate 10 (.step 1) ++
    List.replicate 12 (.step 0)

theorem globalfifo_nobodyForgotten_sample :
    globalfifoDriver.machine.Always NobodyForgotten globalfifoDriver.machine.init
      globalfifoWokenRun :=
  globalfifo_nobodyForgotten List.mem_cons_self (by decide +kernel)

/-- The device is filled, a writer falls asleep on it, and the device is cleared. -/
def globalfifoForgettingRun : List Fifo.Action :=
  .enter 0 (.blocking .write ⟨false, globalfifoSize, fun _ => 7, .copied⟩) ::
      List.replicate 10 (.step 0) ++
    .enter 1 (.blocking .write ⟨false, 1, fun _ => 9, .copied⟩) :: List.replicate 6 (.step 1) ++
    .enter 2 (.ioctl fifoClear) :: List.replicate 4 (.step 2)

/-- **A forgotten writer.** The writer sleeps on an empty device, the mutex is free, and the other
tasks have returned. -/
theorem globalfifo_forgotten_writer :
    ∃ s, globalfifoDriver.machine.run globalfifoForgettingRun = some s ∧ s.mutex = false ∧
      s.dev.len = 0 ∧ s.taskState 1 = .interruptible ∧ s.pc 0 = .idle ∧ s.pc 2 = .idle ∧
      ¬NobodyForgotten s := by
  refine ⟨_, rfl, rfl, rfl, rfl, rfl, rfl, fun h => ?_⟩
  exact h.writer rfl 1 _ rfl rfl (by decide)

end LinuxDriver
