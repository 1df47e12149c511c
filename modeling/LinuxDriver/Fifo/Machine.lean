import LinuxDriver.Fifo.Device

/-!
# The statements of a FIFO driver, one at a time

The `read`, `write`, `poll` and `ioctl` functions of the FIFO drivers of the repository are run
statement by statement by any number of tasks on one device. All drivers share the shape of the
two blocking calls: lock, join the wait queue, wait in a loop for bytes or for space, copy, update
the device, wake the other side, and leave through a label. They differ in the statements behind
the labels, which a `CallCode` lists, and in the details recorded by a `FifoDriver`.

The mutex is a flag: `mutex_lock` waits until it is clear and sets it, and `mutex_unlock` clears it
whoever calls it. `remove_wait_queue` is `list_del` on the entry of the caller, which leaves the
list it is on, whatever head is passed. A task asleep in `schedule()` goes on only after its state
was set to running, by a wake-up of its queue or by a signal; `schedule()` does not put to sleep a
task that is running or has a signal pending. A signal may arrive at any time and stays pending
until the call returns.

The fields `inside`, `strayUnlock`, `history` and `returns` are not part of the drivers. They
record which tasks are between their lock and their unlock, whether some task ever unlocked
without being so, the bytes accepted and given away, and the values returned.

## Main definitions

* `ExitStmt`, `CallCode`, `FifoDriver`.
* `Fifo.Pc`, `Fifo.State`, `Fifo.Action`, `FifoDriver.machine`.

## Main results

* `Fifo.stmt_of_step`, `Fifo.next_cases`: all that one statement and one action can do.
-/

namespace LinuxDriver

/-! ### Drivers -/

/-- The statements behind the exit labels. The argument of `removeWaitQueue` is the direction
whose queue head is passed. -/
inductive ExitStmt
  | mutexUnlock
  | removeWaitQueue (head : Direction)
  | setRunning
  deriving DecidableEq

/-- What distinguishes one blocking call from the others of its kind: whether it sets its state to
running after a wake-up, the statements it runs after each outcome, and the value it returns when
its variable `ret` has a given value. -/
structure CallCode where
  rearms : Bool
  onAgain : List ExitStmt
  onSignal : List ExitStmt
  onFault : List ExitStmt
  onDone : List ExitStmt
  result : ℤ → ℤ

/-- A FIFO driver. `pollMask` is the mask that `poll` returns when `len` has a given value, and
`hasIoctl` says whether there is an `ioctl` with the command `FIFO_CLEAR`. -/
structure FifoDriver where
  layout : FifoLayout
  code : Direction → CallCode
  pollMask : ℕ → ℕ
  hasIoctl : Bool

/-- The test of the wait loop: no byte to read, or no space to write. -/
def FifoDriver.blocked (D : FifoDriver) : Direction → ℕ → Prop
  | .read, len => len = 0
  | .write, len => len = D.layout.size

instance (D : FifoDriver) (d : Direction) (len : ℕ) : Decidable (D.blocked d len) := by
  cases d <;> exact inferInstanceAs (Decidable (_ = _))

namespace Fifo

/-! ### States -/

/-- The next statement of a task. -/
inductive Pc
  | idle
  /-- `mutex_lock(&dev->mutex)` -/
  | lock (d : Direction) (c : UserCall)
  /-- `add_wait_queue(&dev->r_wait, &wait)` or `w_wait` -/
  | enqueue (d : Direction) (c : UserCall)
  /-- `while (dev->len == …)` and the test of `O_NONBLOCK` -/
  | test (d : Direction) (c : UserCall)
  /-- `__set_current_state(TASK_INTERRUPTIBLE)` -/
  | prepare (d : Direction) (c : UserCall)
  /-- `mutex_unlock(&dev->mutex)` in the loop -/
  | release (d : Direction) (c : UserCall)
  /-- `schedule()`, about to be called -/
  | schedule (d : Direction) (c : UserCall)
  /-- asleep in `schedule()` -/
  | asleep (d : Direction) (c : UserCall)
  /-- `if (signal_pending(current))` -/
  | signalTest (d : Direction) (c : UserCall)
  /-- `__set_current_state(TASK_RUNNING)` in the loop -/
  | rearm (d : Direction) (c : UserCall)
  /-- `mutex_lock(&dev->mutex)` in the loop -/
  | relock (d : Direction) (c : UserCall)
  /-- the clamping of the count and the copy from or to the user -/
  | copy (d : Direction) (c : UserCall)
  /-- `memcpy` of the rest to the front, after `out` was copied to the user -/
  | shift (n : ℕ) (out : List UInt8)
  /-- `dev->len -= n` or `dev->len += n`, after `data` was copied -/
  | update (d : Direction) (n : ℕ) (data : List UInt8)
  /-- `wake_up_interruptible` of the other queue -/
  | wake (d : Direction) (n : ℕ)
  | pollLock
  | pollBody
  | clearLock
  | clearBody
  /-- the statements of an exit label, in a call whose entry was put on the queue of `d` -/
  | exit (d : Option Direction) (rest : List ExitStmt) (ret : ℤ)

/-- The calls of the driver. -/
inductive Call
  | blocking (d : Direction) (c : UserCall)
  | poll
  | ioctl (cmd : ℕ)

/-- The state of a device and of all tasks. -/
structure State where
  mutex : Bool
  dev : FifoDev
  waiters : Direction → List ℕ
  taskState : ℕ → TaskState
  sigPending : ℕ → Bool
  pc : ℕ → Pc
  inside : ℕ → Bool
  strayUnlock : Bool
  history : List (Transfer UInt8)
  returns : List (ℕ × ℤ)

namespace State

variable (s : State) (t : ℕ)

/-- Task `t` goes on at `p`. -/
@[simps] def goto (p : Pc) : State := { s with pc := Function.update s.pc t p }

/-- Task `t` is sent a signal, which also ends its interruptible sleep. -/
@[simps] def sendSignal : State :=
  { s with
    sigPending := Function.update s.sigPending t true
    taskState := Function.update s.taskState t .running }

/-- `mutex_lock`, when the flag is clear. -/
@[simps] def mutexLock : State :=
  { s with mutex := true, inside := Function.update s.inside t true }

/-- `mutex_unlock`, whoever holds the mutex. -/
@[simps] def mutexUnlock : State :=
  { s with
    mutex := false
    inside := Function.update s.inside t false
    strayUnlock := s.strayUnlock || !s.inside t }

/-- `add_wait_queue`. -/
@[simps] def addWaitQueue (d : Direction) : State :=
  { s with waiters := Function.update s.waiters d (t :: s.waiters d) }

/-- `remove_wait_queue`, for an entry on the queue of `d`. -/
@[simps] def removeWaitQueue (d : Direction) : State :=
  { s with waiters := Function.update s.waiters d ((s.waiters d).erase t) }

/-- `set_current_state`. -/
@[simps] def setCurrentState (st : TaskState) : State :=
  { s with taskState := Function.update s.taskState t st }

/-- `wake_up_interruptible`. -/
@[simps] def wakeUpInterruptible (d : Direction) : State :=
  { s with taskState := fun u => if u ∈ s.waiters d then .running else s.taskState u }

/-- One statement behind an exit label, in a call whose entry was put on the queue of `d`. -/
def exitStmt (d : Option Direction) : ExitStmt → State
  | .mutexUnlock => s.mutexUnlock t
  | .removeWaitQueue _ => d.elim s (s.removeWaitQueue t)
  | .setRunning => s.setCurrentState t .running

@[simp] theorem exitStmt_dev (d : Option Direction) (x : ExitStmt) :
    (s.exitStmt t d x).dev = s.dev := by
  cases x <;> cases d <;> rfl

@[simp] theorem exitStmt_pc (d : Option Direction) (x : ExitStmt) :
    (s.exitStmt t d x).pc = s.pc := by
  cases x <;> cases d <;> rfl

@[simp] theorem exitStmt_history (d : Option Direction) (x : ExitStmt) :
    (s.exitStmt t d x).history = s.history := by
  cases x <;> cases d <;> rfl

/-- The return to user mode, where a pending signal is handled. -/
@[simps] def leave (ret : ℤ) : State :=
  { s with sigPending := Function.update s.sigPending t false, returns := (t, ret) :: s.returns }

end State

/-! ### Steps -/

/-- A task enters a call, runs its next statement, or is sent a signal. -/
inductive Action
  | enter (t : ℕ) (call : Call)
  | step (t : ℕ)
  | signal (t : ℕ)

/-- The task that an action is about. -/
def Action.task : Action → ℕ
  | .enter t _ | .step t | .signal t => t

end Fifo

namespace FifoDriver

open Fifo

variable (D : FifoDriver)

/-- The first statement of a call. -/
def entry : Call → Option Pc
  | .blocking d c => some (.lock d c)
  | .poll => some .pollLock
  | .ioctl cmd =>
    if D.hasIoctl then some (if cmd = fifoClear then .clearLock else .exit none [] (-einval))
    else none

/-- The way out of a blocking call that leaves `ret` in its variable. -/
def leaveBy (d : Direction) (label : List ExitStmt) (ret : ℤ) : Pc :=
  .exit (some d) label ((D.code d).result ret)

/-- The copy statement: the device after it and the next statement. The copy fails, or the task
goes on to the update. -/
def copyStmt (dev : FifoDev) (d : Direction) (c : UserCall) : FifoDev × Pc :=
  match d, c.copy with
  | .read, .faulted _ => (dev, D.leaveBy .read (D.code .read).onFault (-efault))
  | .read, .copied =>
    let n := D.layout.readCount dev.len c.count
    (dev, .shift n (dev.memory.load 0 n))
  | .write, .faulted junk =>
    let n := D.layout.writeCount dev.len c.count
    (dev.scribble junk n, D.leaveBy .write (D.code .write).onFault (-efault))
  | .write, .copied =>
    let n := D.layout.writeCount dev.len c.count
    (dev.fill c.buf n, .update .write n (c.buf.load 0 n))

/-- The copy leaves `len` alone. -/
@[simp] theorem len_copyStmt (dev : FifoDev) (d : Direction) (c : UserCall) :
    (D.copyStmt dev d c).1.len = dev.len := by
  cases d <;> cases hcopy : c.copy <;> simp [copyStmt, hcopy]

/-- The update of `len`. -/
def updateStmt (dev : FifoDev) (d : Direction) (n : ℕ) : FifoDev :=
  match d with
  | .read => dev.consume D.layout n
  | .write => dev.produce D.layout n

/-- What an update of `len` gives away or accepts. -/
def transfer (d : Direction) (data : List UInt8) : Transfer UInt8 :=
  match d with
  | .read => .popped data
  | .write => .pushed data

/-- The next statement of task `t`, if it can be run. -/
def stmt (s : State) (t : ℕ) : Option State :=
  match s.pc t with
  | .idle => none
  | .lock d c => if s.mutex then none else some ((s.mutexLock t).goto t (.enqueue d c))
  | .enqueue d c => some ((s.addWaitQueue t d).goto t (.test d c))
  | .test d c =>
    some (s.goto t
      (if D.blocked d s.dev.len then
        if c.nonblock then D.leaveBy d (D.code d).onAgain (-eagain) else .prepare d c
      else .copy d c))
  | .prepare d c => some ((s.setCurrentState t .interruptible).goto t (.release d c))
  | .release d c => some ((s.mutexUnlock t).goto t (.schedule d c))
  | .schedule d c =>
    if s.taskState t = .interruptible ∧ s.sigPending t = false then some (s.goto t (.asleep d c))
    else some ((s.setCurrentState t .running).goto t (.signalTest d c))
  | .asleep d c => if s.taskState t = .running then some (s.goto t (.signalTest d c)) else none
  | .signalTest d c =>
    some (s.goto t
      (if s.sigPending t then D.leaveBy d (D.code d).onSignal (-erestartsys)
      else if (D.code d).rearms then .rearm d c else .relock d c))
  | .rearm d c => some ((s.setCurrentState t .running).goto t (.relock d c))
  | .relock d c => if s.mutex then none else some ((s.mutexLock t).goto t (.test d c))
  | .copy d c =>
    some ({ s with dev := (D.copyStmt s.dev d c).1 }.goto t (D.copyStmt s.dev d c).2)
  | .shift n out => some ({ s with dev := s.dev.shiftDown D.layout n }.goto t (.update .read n out))
  | .update d n data =>
    some ({ s with
      dev := D.updateStmt s.dev d n
      history := transfer d data :: s.history }.goto t (.wake d n))
  | .wake d n =>
    some ((s.wakeUpInterruptible d.other).goto t (D.leaveBy d (D.code d).onDone (toCInt n)))
  | .pollLock => if s.mutex then none else some ((s.mutexLock t).goto t .pollBody)
  | .pollBody => some (s.goto t (.exit none [.mutexUnlock] (D.pollMask s.dev.len)))
  | .clearLock => if s.mutex then none else some ((s.mutexLock t).goto t .clearBody)
  | .clearBody =>
    some ({ s with dev := s.dev.clear D.layout, history := .cleared :: s.history }.goto t
      (.exit none [.mutexUnlock] 0))
  | .exit d (x :: rest) ret => some ((s.exitStmt t d x).goto t (.exit d rest ret))
  | .exit _ [] ret => some ((s.leave t ret).goto t .idle)

/-- The steps of the system. -/
def next (s : State) : Action → Option State
  | .enter t call =>
    match s.pc t with
    | .idle => (D.entry call).map (s.goto t)
    | _ => none
  | .step t => D.stmt s t
  | .signal t => some (s.sendSignal t)

/-- All tasks on one device, which is empty, unlocked and unused at first. -/
def machine : Lts State Action where
  init :=
    { mutex := false
      dev := ⟨0, fun _ => 0⟩
      waiters := fun _ => []
      taskState := fun _ => .running
      sigPending := fun _ => false
      pc := fun _ => .idle
      inside := fun _ => false
      strayUnlock := false
      history := []
      returns := [] }
  next := D.next

end FifoDriver

namespace Fifo

/-- All that one statement of task `t` can do. -/
inductive Stmt (D : FifoDriver) (s : State) (t : ℕ) : State → Prop
  | lock {d c} (hpc : s.pc t = .lock d c) (hfree : s.mutex = false) :
      Stmt D s t ((s.mutexLock t).goto t (.enqueue d c))
  | enqueue {d c} (hpc : s.pc t = .enqueue d c) :
      Stmt D s t ((s.addWaitQueue t d).goto t (.test d c))
  | again {d c} (hpc : s.pc t = .test d c) (hblocked : D.blocked d s.dev.len)
      (hnb : c.nonblock = true) :
      Stmt D s t (s.goto t (D.leaveBy d (D.code d).onAgain (-eagain)))
  | wait {d c} (hpc : s.pc t = .test d c) (hblocked : D.blocked d s.dev.len)
      (hnb : c.nonblock = false) : Stmt D s t (s.goto t (.prepare d c))
  | ready {d c} (hpc : s.pc t = .test d c) (hblocked : ¬D.blocked d s.dev.len) :
      Stmt D s t (s.goto t (.copy d c))
  | prepare {d c} (hpc : s.pc t = .prepare d c) :
      Stmt D s t ((s.setCurrentState t .interruptible).goto t (.release d c))
  | release {d c} (hpc : s.pc t = .release d c) :
      Stmt D s t ((s.mutexUnlock t).goto t (.schedule d c))
  | sleep {d c} (hpc : s.pc t = .schedule d c) (hstate : s.taskState t = .interruptible)
      (hsig : s.sigPending t = false) : Stmt D s t (s.goto t (.asleep d c))
  | noSleep {d c} (hpc : s.pc t = .schedule d c)
      (hstate : ¬(s.taskState t = .interruptible ∧ s.sigPending t = false)) :
      Stmt D s t ((s.setCurrentState t .running).goto t (.signalTest d c))
  | awake {d c} (hpc : s.pc t = .asleep d c) (hstate : s.taskState t = .running) :
      Stmt D s t (s.goto t (.signalTest d c))
  | signal {d c} (hpc : s.pc t = .signalTest d c) (hsig : s.sigPending t = true) :
      Stmt D s t (s.goto t (D.leaveBy d (D.code d).onSignal (-erestartsys)))
  | noSignal {d c} (hpc : s.pc t = .signalTest d c) (hsig : s.sigPending t = false) :
      Stmt D s t (s.goto t (if (D.code d).rearms then .rearm d c else .relock d c))
  | rearm {d c} (hpc : s.pc t = .rearm d c) :
      Stmt D s t ((s.setCurrentState t .running).goto t (.relock d c))
  | relock {d c} (hpc : s.pc t = .relock d c) (hfree : s.mutex = false) :
      Stmt D s t ((s.mutexLock t).goto t (.test d c))
  | copy {d c} (hpc : s.pc t = .copy d c) :
      Stmt D s t ({ s with dev := (D.copyStmt s.dev d c).1 }.goto t (D.copyStmt s.dev d c).2)
  | shift {n out} (hpc : s.pc t = .shift n out) :
      Stmt D s t ({ s with dev := s.dev.shiftDown D.layout n }.goto t (.update .read n out))
  | update {d n data} (hpc : s.pc t = .update d n data) :
      Stmt D s t ({ s with
        dev := D.updateStmt s.dev d n
        history := FifoDriver.transfer d data :: s.history }.goto t (.wake d n))
  | wake {d n} (hpc : s.pc t = .wake d n) :
      Stmt D s t ((s.wakeUpInterruptible d.other).goto t
        (D.leaveBy d (D.code d).onDone (toCInt n)))
  | pollLock (hpc : s.pc t = .pollLock) (hfree : s.mutex = false) :
      Stmt D s t ((s.mutexLock t).goto t .pollBody)
  | pollBody (hpc : s.pc t = .pollBody) :
      Stmt D s t (s.goto t (.exit none [.mutexUnlock] (D.pollMask s.dev.len)))
  | clearLock (hpc : s.pc t = .clearLock) (hfree : s.mutex = false) :
      Stmt D s t ((s.mutexLock t).goto t .clearBody)
  | clearBody (hpc : s.pc t = .clearBody) :
      Stmt D s t ({ s with
        dev := s.dev.clear D.layout
        history := .cleared :: s.history }.goto t (.exit none [.mutexUnlock] 0))
  | exit {d x rest ret} (hpc : s.pc t = .exit d (x :: rest) ret) :
      Stmt D s t ((s.exitStmt t d x).goto t (.exit d rest ret))
  | leave {d ret} (hpc : s.pc t = .exit d [] ret) : Stmt D s t ((s.leave t ret).goto t .idle)

/-- **The statements of a driver.** Every step of a task is one of the statements. -/
theorem stmt_of_step {D : FifoDriver} {s s' : State} {t : ℕ} (h : D.stmt s t = some s') :
    Stmt D s t s' := by
  cases hpc : s.pc t with
  | idle => simp [FifoDriver.stmt, hpc] at h
  | lock d c =>
    obtain ⟨hfree, rfl⟩ : s.mutex = false ∧ _ := by simpa [FifoDriver.stmt, hpc] using h
    exact .lock hpc hfree
  | enqueue d c =>
    obtain rfl : _ = s' := by simpa [FifoDriver.stmt, hpc] using h
    exact .enqueue hpc
  | test d c =>
    obtain rfl : _ = s' := by simpa only [FifoDriver.stmt, hpc, Option.some.injEq] using h
    split_ifs with hblocked hnb
    · exact .again hpc hblocked hnb
    · exact .wait hpc hblocked (by simpa using hnb)
    · exact .ready hpc hblocked
  | prepare d c =>
    obtain rfl : _ = s' := by simpa [FifoDriver.stmt, hpc] using h
    exact .prepare hpc
  | release d c =>
    obtain rfl : _ = s' := by simpa [FifoDriver.stmt, hpc] using h
    exact .release hpc
  | schedule d c =>
    simp only [FifoDriver.stmt, hpc] at h
    split_ifs at h with hstate
    · obtain rfl := Option.some.inj h
      exact .sleep hpc hstate.1 hstate.2
    · obtain rfl := Option.some.inj h
      exact .noSleep hpc hstate
  | asleep d c =>
    obtain ⟨hstate, rfl⟩ : s.taskState t = .running ∧ _ := by
      simpa [FifoDriver.stmt, hpc] using h
    exact .awake hpc hstate
  | signalTest d c =>
    obtain rfl : _ = s' := by simpa only [FifoDriver.stmt, hpc, Option.some.injEq] using h
    cases hsig : s.sigPending t
    · exact .noSignal hpc hsig
    · exact .signal hpc hsig
  | rearm d c =>
    obtain rfl : _ = s' := by simpa [FifoDriver.stmt, hpc] using h
    exact .rearm hpc
  | relock d c =>
    obtain ⟨hfree, rfl⟩ : s.mutex = false ∧ _ := by simpa [FifoDriver.stmt, hpc] using h
    exact .relock hpc hfree
  | copy d c =>
    obtain rfl : _ = s' := by simpa [FifoDriver.stmt, hpc] using h
    exact .copy hpc
  | shift n out =>
    obtain rfl : _ = s' := by simpa [FifoDriver.stmt, hpc] using h
    exact .shift hpc
  | update d n data =>
    obtain rfl : _ = s' := by simpa [FifoDriver.stmt, hpc] using h
    exact .update hpc
  | wake d n =>
    obtain rfl : _ = s' := by simpa [FifoDriver.stmt, hpc] using h
    exact .wake hpc
  | pollLock =>
    obtain ⟨hfree, rfl⟩ : s.mutex = false ∧ _ := by simpa [FifoDriver.stmt, hpc] using h
    exact .pollLock hpc hfree
  | pollBody =>
    obtain rfl : _ = s' := by simpa [FifoDriver.stmt, hpc] using h
    exact .pollBody hpc
  | clearLock =>
    obtain ⟨hfree, rfl⟩ : s.mutex = false ∧ _ := by simpa [FifoDriver.stmt, hpc] using h
    exact .clearLock hpc hfree
  | clearBody =>
    obtain rfl : _ = s' := by simpa [FifoDriver.stmt, hpc] using h
    exact .clearBody hpc
  | exit d rest ret =>
    cases rest with
    | nil =>
      obtain rfl : _ = s' := by simpa [FifoDriver.stmt, hpc] using h
      exact .leave hpc
    | cons x rest =>
      obtain rfl : _ = s' := by simpa [FifoDriver.stmt, hpc] using h
      exact .exit hpc

/-- The first statement of a call is a `mutex_lock`, or the call returns at once. -/
theorem entry_cases {D : FifoDriver} {call : Call} {p : Pc} (h : D.entry call = some p) :
    (∃ d c, call = .blocking d c ∧ p = .lock d c) ∨ p = .pollLock ∨ p = .clearLock ∨
      p = .exit none [] (-einval) := by
  cases call with
  | blocking d c =>
    obtain rfl : _ = p := by simpa [FifoDriver.entry] using h
    exact .inl ⟨d, c, rfl, rfl⟩
  | poll =>
    obtain rfl : _ = p := by simpa [FifoDriver.entry] using h
    exact .inr (.inl rfl)
  | ioctl cmd =>
    simp only [FifoDriver.entry] at h
    split_ifs at h with hioctl hcmd
    · obtain rfl := Option.some.inj h
      exact .inr (.inr (.inl rfl))
    · obtain rfl := Option.some.inj h
      exact .inr (.inr (.inr rfl))

/-- **The actions.** A task that is not in a call enters one, a task runs a statement, or a task
is sent a signal. -/
theorem next_cases {D : FifoDriver} {s s' : State} {a : Action} (h : D.next s a = some s') :
    (∃ t call p, a = .enter t call ∧ s.pc t = .idle ∧ D.entry call = some p ∧ s' = s.goto t p) ∨
    (∃ t, a = .step t ∧ Stmt D s t s') ∨ (∃ t, a = .signal t ∧ s' = s.sendSignal t) := by
  cases a with
  | enter t call =>
    cases hpc : s.pc t with
    | idle =>
      simp only [FifoDriver.next, hpc, Option.map_eq_some_iff] at h
      obtain ⟨p, hp, rfl⟩ := h
      exact .inl ⟨t, call, p, rfl, hpc, hp, rfl⟩
    | _ => simp [FifoDriver.next, hpc] at h
  | step t => exact .inr (.inl ⟨t, rfl, stmt_of_step h⟩)
  | signal t => exact .inr (.inr ⟨t, rfl, (Option.some.inj h).symm⟩)

/-- An action about one task does not move the others. -/
theorem pc_of_ne {D : FifoDriver} {s s' : State} {a : Action} {u : ℕ} (h : D.next s a = some s')
    (hu : u ≠ a.task) : s'.pc u = s.pc u := by
  obtain ⟨t, call, p, rfl, hpc, hp, rfl⟩ | ⟨t, rfl, hstmt⟩ | ⟨t, rfl, rfl⟩ := next_cases h
  · exact Function.update_of_ne hu ..
  · cases hstmt with
    | @exit d x rest ret hpc => cases x <;> cases d <;> exact Function.update_of_ne hu ..
    | _ => exact Function.update_of_ne hu ..
  · rfl

end Fifo

end LinuxDriver
