import LinuxDriver.Fifo.Calls
import LinuxDriver.GlobalFifo.Sleep
import LinuxDriver.LkmMemory.Drivers

/-!
# Readiness in the mask of `poll`

A task that polls a FIFO device relies on the mask: `POLLIN` says that a non-blocking read will not
fail with `-EAGAIN`, and `POLLOUT` the same of a write. In `lkm_mem_poll` the test for space stands
inside the braces of the test for bytes, so that an empty device is never reported as writable. In
`globalfifo_poll` the two tests follow each other.

## Main definitions

* `FifoDriver.Ready`: a non-blocking call does not fail with `-EAGAIN`.
* `FifoDriver.ReadinessAgrees`: the mask says so exactly when it is so.

## Main results

* `FifoDriver.ready_iff`: the calls agree with the test of their wait loop.
* `globalfifo_readinessAgrees`: the mask of `globalfifo_poll` agrees at every fill level.
* `lkmMemPoll_agrees_iff`: the mask of `lkm_mem_poll` agrees exactly on a device that is not empty.
-/

namespace LinuxDriver

namespace FifoDriver

variable (D : FifoDriver)

/-- A non-blocking call issued on this device does not return `-EAGAIN`. -/
def Ready (d : Direction) (dev : FifoDev) : Prop :=
  ∀ c raw out, c.nonblock = true → (stretch D.layout d c dev).2 = .ret raw out →
    (D.code d).result raw ≠ -eagain

/-- The mask of `poll` has the bit of a call exactly when the device is ready for it. -/
structure ReadinessAgrees (dev : FifoDev) : Prop where
  pollin_iff : D.pollMask dev.len &&& pollin ≠ 0 ↔ D.Ready .read dev
  pollout_iff : D.pollMask dev.len &&& pollout ≠ 0 ↔ D.Ready .write dev

variable {D}

/-- A call that passes the test of its loop fails with `-EFAULT`, or returns its count. -/
theorem ret_of_not_blocked {dev : FifoDev} (hdev : dev.len ≤ D.layout.size) {d : Direction}
    (h : ¬D.blocked d dev.len) {c : UserCall} {raw : ℤ} {out : List UInt8}
    (hret : (stretch D.layout d c dev).2 = .ret raw out) : raw = -efault ∨ 0 ≤ raw := by
  cases hr : stretch D.layout d c dev with
  | mk dev' e =>
    rw [hr] at hret
    obtain rfl : e = .ret raw out := hret
    cases d with
    | read =>
      obtain ⟨-, hend, -⟩ | ⟨-, r, -, hr', hend⟩ | ⟨n, -, -, -, -, hend⟩ :=
        readStretch_cases hdev hr
      · cases hend
      · obtain ⟨rfl, -⟩ := Stretch.ret.inj hend
        exact .inl (hr'.trans (if_neg h))
      · obtain ⟨rfl, -⟩ := Stretch.ret.inj hend
        exact .inr (Int.natCast_nonneg n)
    | write =>
      obtain ⟨-, hend, -⟩ | ⟨-, -, r, -, hr', hend⟩ | ⟨n, -, -, -, -, hend⟩ :=
        writeStretch_cases hdev hr
      · cases hend
      · obtain ⟨rfl, -⟩ := Stretch.ret.inj hend
        exact .inl (hr'.trans (if_neg h))
      · obtain ⟨rfl, -⟩ := Stretch.ret.inj hend
        exact .inr (Int.natCast_nonneg n)

/-- **Readiness of the data path.** A device is ready for a call exactly when the call passes the
test of its wait loop. -/
theorem ready_iff {dev : FifoDev} (hdev : dev.len ≤ D.layout.size) {d : Direction}
    (hresult : (D.code d).result = id) : D.Ready d dev ↔ ¬D.blocked d dev.len := by
  constructor
  · intro h hblocked
    have hagain : (stretch D.layout d ⟨true, 0, fun _ => 0, .copied⟩ dev).2 =
        .ret (-eagain) [] := by
      cases d with
      | read => exact congrArg Prod.snd (if_pos hblocked)
      | write => exact congrArg Prod.snd (if_pos hblocked)
    exact h _ _ _ rfl hagain (by rw [hresult]; rfl)
  · intro h c raw out _ hret
    rw [hresult, id_eq]
    obtain rfl | hnonneg := ret_of_not_blocked hdev h hret
    · decide
    · have hneg : -eagain < 0 := by decide
      omega

end FifoDriver

/-! ### The masks -/

theorem lkmMemPoll_pollin (len : ℕ) : lkmMemPoll len &&& pollin ≠ 0 ↔ len ≠ 0 := by
  rw [lkmMemPoll]
  split_ifs with hempty hfull
  · exact iff_of_true (by decide) hempty
  · exact iff_of_true (by decide) hempty
  · exact iff_of_false (by decide) hempty

/-- An empty device has no `POLLOUT`. -/
theorem lkmMemPoll_pollout (len : ℕ) :
    lkmMemPoll len &&& pollout ≠ 0 ↔ len ≠ 0 ∧ len ≠ lkmMemSize := by
  rw [lkmMemPoll]
  split_ifs with hempty hfull
  · exact iff_of_true (by decide) ⟨hempty, hfull⟩
  · exact iff_of_false (by decide) fun h => hfull h.2
  · exact iff_of_false (by decide) fun h => hempty h.1

theorem globalfifoPoll_pollin (len : ℕ) : globalfifoPoll len &&& pollin ≠ 0 ↔ len ≠ 0 := by
  rw [globalfifoPoll]
  split_ifs with hempty hfull hfull
  · exact iff_of_true (by decide) hempty
  · exact iff_of_true (by decide) hempty
  · exact iff_of_false (by decide) hempty
  · exact iff_of_false (by decide) hempty

theorem globalfifoPoll_pollout (len : ℕ) :
    globalfifoPoll len &&& pollout ≠ 0 ↔ len ≠ globalfifoSize := by
  rw [globalfifoPoll]
  split_ifs with hempty hfull hfull
  · exact iff_of_true (by decide) hfull
  · exact iff_of_false (by decide) hfull
  · exact iff_of_true (by decide) hfull
  · exact iff_of_false (by decide) hfull

/-- The mask of `globalfifo.c` agrees with its data path at every fill level. -/
theorem globalfifo_readinessAgrees {dev : FifoDev} (hdev : dev.len ≤ globalfifoSize) :
    globalfifoDriver.ReadinessAgrees dev where
  pollin_iff := (globalfifoPoll_pollin dev.len).trans
    (FifoDriver.ready_iff (D := globalfifoDriver) (d := .read) hdev rfl).symm
  pollout_iff := (globalfifoPoll_pollout dev.len).trans
    (FifoDriver.ready_iff (D := globalfifoDriver) (d := .write) hdev rfl).symm

/-! ### The lkm_memory drivers -/

/-- The drivers of `poll/hello.c` and `async/hello.c`. -/
def lkmDrivers : List FifoDriver := [lkmPollDriver, lkmAsyncDriver]

namespace LkmMemory

variable {D : FifoDriver} (hD : D ∈ lkmDrivers)

include hD

theorem lkmDrivers_eq : D = lkmPollDriver ∨ D = lkmAsyncDriver := by
  simpa [lkmDrivers] using hD

theorem layout_of_mem_lkmDrivers : D.layout = lkmLayout := by
  obtain rfl | rfl := lkmDrivers_eq hD <;> rfl

theorem pollMask_of_mem_lkmDrivers : D.pollMask = lkmMemPoll := by
  obtain rfl | rfl := lkmDrivers_eq hD <;> rfl

theorem result_of_mem_lkmDrivers (d : Direction) : (D.code d).result = id := by
  obtain rfl | rfl := lkmDrivers_eq hD <;> cases d <;> rfl

/-- **One state.** -/
theorem readinessAgrees_iff {dev : FifoDev} (hdev : dev.len ≤ D.layout.size) :
    D.ReadinessAgrees dev ↔ dev.len ≠ 0 := by
  have hsize : D.layout.size = lkmMemSize := by rw [layout_of_mem_lkmDrivers hD]; rfl
  have hread : D.Ready .read dev ↔ dev.len ≠ 0 :=
    FifoDriver.ready_iff hdev (result_of_mem_lkmDrivers hD .read)
  have hwrite : D.Ready .write dev ↔ dev.len ≠ lkmMemSize := by
    rw [← hsize]
    exact FifoDriver.ready_iff hdev (result_of_mem_lkmDrivers hD .write)
  have hmask := pollMask_of_mem_lkmDrivers hD
  constructor
  · intro h hempty
    -- there is space in an empty device
    have hne : dev.len ≠ lkmMemSize := by
      rw [hempty]
      decide
    have hbit := h.pollout_iff.mpr (hwrite.mpr hne)
    rw [hmask, lkmMemPoll_pollout] at hbit
    exact hbit.1 hempty
  · intro hne
    refine ⟨?_, ?_⟩
    · rw [hmask, lkmMemPoll_pollin, hread]
    · rw [hmask, lkmMemPoll_pollout, hwrite]
      exact and_iff_right hne

end LkmMemory

open Fifo LkmMemory

/-- **Readiness of the lkm_memory drivers.** In every state that a history of calls reaches, and in
every state of a run of their statements without intrusions, the mask of `lkm_mem_poll` agrees with
the calls if and only if the device is not empty. -/
theorem lkmMemPoll_agrees_iff {D : FifoDriver} (hD : D ∈ lkmDrivers) :
    (∀ s, D.calls.Reachable s → (D.ReadinessAgrees s.dev ↔ s.dev.len ≠ 0)) ∧
    ∀ as, D.machine.Obeys NoIntrusion D.machine.init as →
      D.machine.Always (fun s => D.ReadinessAgrees s.dev ↔ s.dev.len ≠ 0) D.machine.init as := by
  constructor
  · intro s hs
    exact readinessAgrees_iff hD (calls_invariant hs).len_le
  · intro as hC
    exact D.machine.always_of_obeys (I := Sound D) (fun _ _ _ hs hC h => hs.next hC h)
      (fun _ hs => readinessAgrees_iff hD hs.len_le) sound_init hC

/-- A write of one byte. -/
def lkmOneByte : List CallAction := [.call 0 .write ⟨true, 1, fun _ => 7, .copied⟩]

theorem lkmMemPoll_agrees_iff_one_byte :
    ∃ s, lkmPollDriver.calls.run lkmOneByte = some s ∧
      (lkmPollDriver.ReadinessAgrees s.dev ↔ s.dev.len ≠ 0) :=
  ⟨_, rfl, (lkmMemPoll_agrees_iff List.mem_cons_self).1 _ ⟨lkmOneByte, rfl⟩⟩

/-- **An empty device.** A non-blocking write is accepted, and the mask is empty. -/
theorem lkmMemPoll_empty_not_writable :
    lkmPollDriver.calls.Reachable lkmPollDriver.calls.init ∧
    lkmPollDriver.Ready .write lkmPollDriver.calls.init.dev ∧
    lkmPollDriver.pollMask lkmPollDriver.calls.init.dev.len = 0 ∧
    ¬lkmPollDriver.ReadinessAgrees lkmPollDriver.calls.init.dev := by
  have hready : lkmPollDriver.Ready .write lkmPollDriver.calls.init.dev :=
    (FifoDriver.ready_iff (Nat.zero_le _) rfl).mpr (by decide)
  exact ⟨⟨[], rfl⟩, hready, rfl, fun h => absurd (h.pollout_iff.mpr hready) (by decide)⟩

end LinuxDriver
