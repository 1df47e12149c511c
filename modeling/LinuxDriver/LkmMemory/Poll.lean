import LinuxDriver.Fifo.Discipline
import LinuxDriver.LkmMemory.Drivers

/-!
# Lock and wait-queue discipline of the poll driver

`lkm_mem_read` and `lkm_mem_write` of `poll/hello.c` leave through the labels `exit_2` and `exit`,
behind which the entry is removed from its queue and the mutex is unlocked. A call interrupted by
a signal also jumps to `exit_2`, after it has unlocked the mutex to sleep; and a write that
succeeds returns before the labels, with the mutex held and its entry still queued.

These are the only two faults: while no call finds a signal pending after its sleep and no write
is given a buffer that can be copied, the driver is disciplined.

## Main definitions

* `Fifo.WellBehaved`: what the discipline promises in a state.
* `LkmMemory.Clean`: a step that takes neither of the two faulty ways out.

## Main results

* `lkmPollDriver_wellBehaved`: the discipline in every run of clean steps.
* `lkmPollDriver_faults`: a run for each fault.
-/

namespace LinuxDriver

namespace Fifo

/-- A task that is not in a call holds no mutex and is on no queue, no task has unlocked a mutex
it did not hold, and every task about to lock the mutex can do so after some steps of another
task. -/
structure WellBehaved (D : FifoDriver) (s : State) : Prop where
  returned : ∀ t, s.pc t = .idle → s.inside t = false ∧ ∀ d, t ∉ s.waiters d
  unlocked : s.strayUnlock = false
  acquires : ∀ t, locking (s.pc t) → ∃ u n s' s'', u ≠ t ∧
    D.machine.runFrom s (List.replicate n (.step u)) = some s' ∧ D.next s' (.step t) = some s''

end Fifo

namespace LkmMemory

open Fifo

variable {s s' : State} {a : Action} {t : ℕ}

/-! ### The condition -/

/-- The call is a read, or a write whose copy is going to fail. -/
def WriteFails (d : Direction) (c : UserCall) : Prop := d = .write → c.copy ≠ .copied

/-- The next statement is `if (signal_pending(current))`. -/
def testsSignal : Pc → Bool
  | .signalTest .. => true
  | _ => false

/-- No task finds a signal pending after its sleep, and no write is given a buffer that can be
copied. -/
def Clean (s : State) : Action → Prop
  | .enter _ (.blocking d c) => WriteFails d c
  | .step t => testsSignal (s.pc t) = true → s.sigPending t = false
  | _ => True

instance (s : State) : (a : Action) → Decidable (Clean s a)
  | .enter _ (.blocking d c) => inferInstanceAs (Decidable (d = .write → c.copy ≠ .copied))
  | .step t =>
    inferInstanceAs (Decidable (testsSignal (s.pc t) = true → s.sigPending t = false))
  | .enter _ .poll | .enter _ (.ioctl _) | .signal _ => isTrue trivial

/-- No write of the task has been copied or is going to be. -/
def Failing : Pc → Prop
  | .lock d c | .enqueue d c | .test d c | .prepare d c | .release d c | .schedule d c
  | .asleep d c | .signalTest d c | .rearm d c | .relock d c | .copy d c => WriteFails d c
  | .update d _ _ | .wake d _ => d = .read
  | _ => True

theorem failing_of_next (hs : ∀ t, Failing (s.pc t)) (hC : Clean s a)
    (h : lkmPollDriver.next s a = some s') : ∀ t, Failing (s'.pc t) := by
  intro u
  by_cases hu : u = a.task
  · subst hu
    have hpc' := hs a.task
    obtain ⟨t, call, p, rfl, hpc, hp, rfl⟩ | ⟨t, rfl, hstmt⟩ | ⟨t, rfl, rfl⟩ := next_cases h
    · obtain ⟨d, c, rfl, rfl⟩ | rfl | rfl | rfl := entry_cases hp
      · simpa [Action.task, Failing, Clean] using hC
      all_goals simp [Action.task, Failing]
    · simp only [Action.task] at hpc' ⊢
      cases hstmt with
      | @copy d c hpc =>
        simp only [hpc, Failing, WriteFails] at hpc'
        cases d <;> cases hcopy : c.copy <;>
          simp_all [FifoDriver.copyStmt, FifoDriver.leaveBy, Failing]
      | noSignal hpc => cases hrearms : (lkmPollDriver.code _).rearms <;> simp_all [Failing]
      | _ => simp_all [Failing, FifoDriver.leaveBy]
    · exact hpc'
  · rw [pc_of_ne h hu]
    exact hs u

/-! ### The discipline -/

/-- A clean step takes no unbalanced label. -/
theorem tidy_of_clean (hs : ∀ t, Failing (s.pc t)) (hC : Clean s a) : Tidy lkmPollDriver s a := by
  cases a with
  | enter t call | signal t => trivial
  | step t =>
    simp only [Tidy]
    cases hpc : s.pc t with
    | test d c => intro _ _; cases d <;> decide
    | signalTest d c =>
      intro hsig
      simp [hC (by rw [hpc]; rfl)] at hsig
    | copy d c => intro _; cases d <;> decide
    | wake d n =>
      obtain rfl : d = .read := by simpa [hpc, Failing] using hs t
      exact (by decide : ExitLabel.Balanced 1 lkmMemRead.onDone)
    | _ => trivial

/-- The invariant of the runs of clean steps. -/
structure CleanInv (s : State) : Prop where
  sound : Sound lkmPollDriver s
  disciplined : Disciplined s
  failing : ∀ t, Failing (s.pc t)

theorem cleanInv_init : CleanInv lkmPollDriver.machine.init :=
  ⟨sound_init, disciplined_init, fun _ => trivial⟩

theorem CleanInv.next (hs : CleanInv s) (hC : Clean s a) (h : lkmPollDriver.next s a = some s') :
    CleanInv s' where
  sound := hs.sound.next (hs.disciplined.noIntrusion a) h
  disciplined := hs.disciplined.next (tidy_of_clean hs.failing hC) h
  failing := failing_of_next hs.failing hC h

/-- A task inside is not about to test for a signal, so its steps are clean. -/
theorem clean_of_inside (hs : CleanInv s) (ht : s.inside t = true) : Clean s (.step t) := by
  intro htest
  have howes := hs.disciplined.owes_eq t
  cases hpc : s.pc t <;> simp_all [owes, testsSignal]

theorem CleanInv.wellBehaved (hs : CleanInv s) : WellBehaved lkmPollDriver s where
  returned _ ht := hs.disciplined.idle ht
  unlocked := hs.disciplined.strayUnlock_eq
  acquires _ ht := exists_acquire (C := Clean) (I := CleanInv)
    (fun _ hs => ⟨hs.disciplined, hs.sound.exclusive⟩) (fun _ _ hs ht => clean_of_inside hs ht)
    (fun _ _ _ hs hC h => hs.next hC h) hs ht

end LkmMemory

open Fifo LkmMemory

/-- **Discipline of the poll driver.** In every run of clean steps every state is well behaved: a
task that has returned holds no mutex and is on no queue, no task has unlocked a mutex it did not
hold, and every read, write and poll can acquire the mutex. -/
theorem lkmPollDriver_wellBehaved {as : List Action}
    (hC : lkmPollDriver.machine.Obeys Clean lkmPollDriver.machine.init as) :
    lkmPollDriver.machine.Always (WellBehaved lkmPollDriver) lkmPollDriver.machine.init as :=
  lkmPollDriver.machine.always_of_obeys (I := CleanInv) (fun _ _ _ hs hC h => hs.next hC h)
    (fun _ hs => hs.wellBehaved) cleanInv_init hC

/-- A reader asleep on the empty device, and a write whose buffer cannot be read. -/
def lkmCleanRun : List Action :=
  [.enter 0 (.blocking .read ⟨false, 4, fun _ => 0, .copied⟩)] ++ List.replicate 6 (.step 0) ++
    [.enter 1 (.blocking .write ⟨false, 4, fun _ => 0, .faulted []⟩)] ++
    List.replicate 8 (.step 1)

theorem lkmPollDriver_wellBehaved_sample :
    lkmPollDriver.machine.Always (WellBehaved lkmPollDriver) lkmPollDriver.machine.init
      lkmCleanRun :=
  lkmPollDriver_wellBehaved (by decide +kernel)

/-- A write of one byte into the empty device, from its entry to its return. -/
def lkmWriteRun : List Action :=
  .enter 0 (.blocking .write ⟨false, 1, fun _ => 7, .copied⟩) :: List.replicate 7 (.step 0)

/-- A read of the empty device that is interrupted by a signal in its sleep, from its entry to its
return. -/
def lkmSignalRun : List Action :=
  [.enter 0 (.blocking .read ⟨false, 1, fun _ => 0, .copied⟩)] ++ List.replicate 6 (.step 0) ++
    [.signal 0] ++ List.replicate 6 (.step 0)

/-- **Faults of the poll driver.** A write that succeeds returns with the mutex held and its entry
on the queue; a read interrupted by a signal unlocks a mutex it does not hold. -/
theorem lkmPollDriver_faults :
    (∃ s, lkmPollDriver.machine.run lkmWriteRun = some s ∧ s.pc 0 = .idle ∧
      s.returns = [(0, 1)] ∧ s.mutex = true ∧ s.inside 0 = true ∧ 0 ∈ s.waiters .write ∧
      ¬WellBehaved lkmPollDriver s) ∧
    (∃ s, lkmPollDriver.machine.run lkmSignalRun = some s ∧ s.pc 0 = .idle ∧
      s.returns = [(0, -erestartsys)] ∧ s.strayUnlock = true ∧ ¬WellBehaved lkmPollDriver s) := by
  refine ⟨⟨_, rfl, rfl, by decide +kernel, rfl, rfl, List.mem_cons_self, fun h => ?_⟩,
    ⟨_, rfl, rfl, rfl, rfl, fun h => ?_⟩⟩
  · exact absurd (h.returned 0 rfl).1 (by decide)
  · exact absurd h.unlocked (by decide)

end LinuxDriver
