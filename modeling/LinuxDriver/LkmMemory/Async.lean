import LinuxDriver.Fifo.Discipline
import LinuxDriver.LkmMemory.Drivers

/-!
# Mutual exclusion of the asynchronous driver

In `async/hello.c` a call that is interrupted by a signal in its sleep jumps to `exit_2` without
the mutex and runs the `mutex_unlock` behind the label `exit`. If another task holds the mutex at
that moment, it is unlocked under it, and a third task may lock it as well.

A task on any other way out still holds the mutex when it comes to `mutex_unlock`
(`LkmMemory.lockOwes`). So all is well as long as the mutex is free whenever a task that leaves
with `-ERESTARTSYS` unlocks it.

## Main definitions

* `LkmMemory.Undisturbed`: the condition on a step.
* `LkmMemory.lockOwes`: the unlocks still to come, those after a signal apart.

## Main results

* `LkmMemory.noIntrusion_of_undisturbed`.
* `lkmAsyncDriver_conserves`: mutual exclusion and the law of the queue in every undisturbed run.
* `lkmAsyncDriver_faults`: a run with two tasks inside, and one that loses a byte.
-/

namespace LinuxDriver

namespace LkmMemory

open Fifo

variable {s s' : State} {a : Action} {t : ℕ}

/-- The value that a task is going to return when its next statement is the `mutex_unlock` behind
an exit label. -/
def unlocksWith : Pc → Option ℤ
  | .exit _ (.mutexUnlock :: _) ret => some ret
  | _ => none

/-- The mutex is free when a task that leaves with `-ERESTARTSYS` unlocks it. -/
def Undisturbed (s : State) : Action → Prop
  | .step t => unlocksWith (s.pc t) = some (-erestartsys) → s.mutex = false
  | _ => True

instance (s : State) : (a : Action) → Decidable (Undisturbed s a)
  | .step t =>
    inferInstanceAs (Decidable (unlocksWith (s.pc t) = some (-erestartsys) → s.mutex = false))
  | .enter .. | .signal _ => isTrue trivial

/-- How many `mutex_unlock` a task has to run for the mutex it holds. -/
def lockOwes : Pc → ℕ
  | .exit _ rest ret => if ret = -erestartsys then 0 else rest.count .mutexUnlock
  | .enqueue .. | .test .. | .prepare .. | .release .. | .copy .. | .shift .. | .update ..
  | .wake .. | .pollBody | .clearBody => 1
  | _ => 0

theorem lockOwes_leaveBy (d : Direction) (label : List ExitStmt) (ret : ℤ) :
    lockOwes (lkmAsyncDriver.leaveBy d label ret) =
      if ret = -erestartsys then 0 else label.count .mutexUnlock := by
  cases d <;> rfl

/-- Behind every label there is one `mutex_unlock`. -/
theorem count_mutexUnlock (d : Direction) :
    (lkmAsyncDriver.code d).onAgain.count .mutexUnlock = 1 ∧
    (lkmAsyncDriver.code d).onFault.count .mutexUnlock = 1 ∧
    (lkmAsyncDriver.code d).onDone.count .mutexUnlock = 1 := by
  cases d <;> decide

/-- A call that transfers bytes does not return `-ERESTARTSYS`. -/
theorem toCInt_ne_erestartsys {n : ℕ} (hn : n ≤ lkmMemSize) : toCInt n ≠ -erestartsys := by
  have hint : toCInt n = n := toCInt_of_lt (hn.trans_lt lkmLayout.size_lt_int)
  rw [hint, erestartsys]
  omega

/-- Every statement keeps what a task owes, with and without intrusions. -/
theorem lockOwes_of_stmt (h : Stmt lkmAsyncDriver s t s')
    (hfits : Fits lkmAsyncDriver s.dev (s.pc t)) (howes : lockOwes (s.pc t) = (s.inside t).toNat) :
    lockOwes (s'.pc t) = (s'.inside t).toNat := by
  have hagain : -eagain ≠ -erestartsys := by decide
  have hfault : -efault ≠ -erestartsys := by decide
  cases h with
  | @again d c hpc =>
    have hin : 1 = (s.inside t).toNat := by simpa [hpc, lockOwes] using howes
    simpa [lockOwes_leaveBy, hagain, count_mutexUnlock d] using hin
  | @signal d c hpc =>
    have hin : 0 = (s.inside t).toNat := by simpa [hpc, lockOwes] using howes
    simpa [lockOwes_leaveBy] using hin
  | @wake d n hpc =>
    have hin : 1 = (s.inside t).toNat := by simpa [hpc, lockOwes] using howes
    have hn : n ≤ lkmMemSize := by rwa [hpc] at hfits
    simpa [lockOwes_leaveBy, toCInt_ne_erestartsys hn, count_mutexUnlock d] using hin
  | @copy d c hpc =>
    have hin : 1 = (s.inside t).toNat := by simpa [hpc, lockOwes] using howes
    cases hcopy : c.copy with
    | faulted junk =>
      cases d <;>
        simpa [FifoDriver.copyStmt, hcopy, lockOwes_leaveBy, hfault, count_mutexUnlock] using hin
    | copied => cases d <;> simpa [FifoDriver.copyStmt, hcopy, lockOwes] using hin
  | @noSignal d c hpc =>
    cases hrearms : (lkmAsyncDriver.code d).rearms <;> simpa [hpc, hrearms, lockOwes] using howes
  | @exit d x rest ret hpc =>
    by_cases hret : ret = -erestartsys
    · have hin : s.inside t = false := by simpa [hpc, hret, lockOwes] using howes.symm
      cases x <;> cases d <;> simp [State.exitStmt, hret, lockOwes, hin]
    · cases x with
      | mutexUnlock =>
        obtain ⟨hin, hrest⟩ : s.inside t = true ∧ rest.count .mutexUnlock = 0 := by
          cases hin : s.inside t <;> simp_all [lockOwes]
        simp [State.exitStmt, lockOwes, hrest]
      | removeWaitQueue head => cases d <;> simpa [State.exitStmt, hpc, lockOwes, hret] using howes
      | setRunning => simpa [State.exitStmt, hpc, lockOwes, hret] using howes
  | pollBody hpc =>
    have hmask : ((lkmAsyncDriver.pollMask s.dev.len : ℕ) : ℤ) ≠ -erestartsys := by
      rw [erestartsys]
      omega
    simpa [hpc, lockOwes, hmask] using howes
  | clearBody hpc => simpa [hpc, lockOwes, erestartsys] using howes
  | _ => simp_all [lockOwes]

/-- The invariant of the undisturbed runs. -/
structure AsyncInv (s : State) : Prop where
  sound : Sound lkmAsyncDriver s
  lockOwes_eq : ∀ t, lockOwes (s.pc t) = (s.inside t).toNat

/-- An undisturbed step is no intrusion. -/
theorem noIntrusion_of_undisturbed (hs : AsyncInv s) (hC : Undisturbed s a) : NoIntrusion s a := by
  intro t d rest ret ha hpc
  subst ha
  by_cases hret : ret = -erestartsys
  · have hfree : s.mutex = false := hC (by rw [hpc, hret]; rfl)
    right
    intro u
    by_contra hu
    simpa [hfree] using hs.sound.exclusive.mutex_iff.mpr ⟨u, by simpa using hu⟩
  · left
    have howes := hs.lockOwes_eq t
    cases hin : s.inside t <;> simp_all [lockOwes]

theorem asyncInv_init : AsyncInv lkmAsyncDriver.machine.init := ⟨sound_init, fun _ => rfl⟩

theorem AsyncInv.next (hs : AsyncInv s) (hC : Undisturbed s a)
    (h : lkmAsyncDriver.next s a = some s') : AsyncInv s' := by
  refine ⟨hs.sound.next (noIntrusion_of_undisturbed hs hC) h, fun u => ?_⟩
  by_cases hu : u = a.task
  · subst hu
    have howes := hs.lockOwes_eq a.task
    obtain ⟨t, call, p, rfl, hpc, hp, rfl⟩ | ⟨t, rfl, hstmt⟩ | ⟨t, rfl, rfl⟩ := next_cases h
    · obtain ⟨d, c, -, rfl⟩ | rfl | rfl | rfl := entry_cases hp <;>
        simpa [Action.task, hpc, lockOwes] using howes
    · exact lockOwes_of_stmt hstmt (hs.sound.fits t) howes
    · exact howes
  · obtain ⟨hpc, hin, -⟩ := frame_of_next h hu
    rw [hpc, hin, hs.lockOwes_eq]

end LkmMemory

open Fifo LkmMemory

/-- **Mutual exclusion of the asynchronous driver.** In every undisturbed run, every state passed
has at most one task inside, only a task inside is at a statement that touches the device, and no
byte is lost or given away twice. -/
theorem lkmAsyncDriver_conserves {as : List Action}
    (hC : lkmAsyncDriver.machine.Obeys Undisturbed lkmAsyncDriver.machine.init as) :
    lkmAsyncDriver.machine.Always Conserves lkmAsyncDriver.machine.init as := by
  refine conservation_of_obeys (hC.mono (I := AsyncInv) ?_ ?_ asyncInv_init)
  · intro s a hs hC
    exact noIntrusion_of_undisturbed hs hC
  · intro s a s' hs hC h
    exact hs.next hC h

/-- A read of the empty device by task `t` up to its sleep. -/
def sleepingRead (t : ℕ) : List Action :=
  .enter t (.blocking .read ⟨false, 1, fun _ => 0, .copied⟩) :: List.replicate 6 (.step t)

/-- A write of the byte `b` by task `t` up to the copy of the byte. -/
def startedWrite (t : ℕ) (b : UInt8) : List Action :=
  .enter t (.blocking .write ⟨false, 1, fun _ => b, .copied⟩) :: List.replicate 3 (.step t)

/-- A reader is interrupted and returns while no other task is inside, and then a byte is
written. -/
def lkmUndisturbedRun : List Action :=
  sleepingRead 0 ++ .signal 0 :: List.replicate 6 (.step 0) ++ startedWrite 1 7 ++
    List.replicate 7 (.step 1)

theorem lkmAsyncDriver_conserves_sample :
    lkmAsyncDriver.machine.Always Conserves lkmAsyncDriver.machine.init lkmUndisturbedRun :=
  lkmAsyncDriver_conserves (by decide +kernel)

/-- A reader is interrupted in its sleep and unlocks the mutex that the writer `1` holds, so that
the writer `2` locks it as well. -/
def lkmDisturbedRun : List Action :=
  sleepingRead 0 ++ .signal 0 :: List.replicate 4 (.step 0) ++ startedWrite 1 7 ++
    .step 0 :: startedWrite 2 9

/-- The two writers then copy their bytes one after the other, and return. -/
def lkmLosingRun : List Action :=
  lkmDisturbedRun ++ [.step 1, .step 2] ++ List.replicate 6 (.step 1) ++
    List.replicate 6 (.step 2)

/-- **Faults of the asynchronous driver.** Two tasks are inside at once; and of two bytes accepted
the first is overwritten by the second, and a byte that was never written is held instead. -/
theorem lkmAsyncDriver_faults :
    (∃ s, lkmAsyncDriver.machine.run lkmDisturbedRun = some s ∧ s.inside 1 = true ∧
      s.inside 2 = true ∧ ¬Conserves s) ∧
    (∃ s, lkmAsyncDriver.machine.run lkmLosingRun = some s ∧
      pushedSince s.history = [7, 9] ∧ poppedSince s.history = [] ∧ s.dev.content = [9, 0]) := by
  constructor
  · refine ⟨_, rfl, rfl, rfl, fun h => ?_⟩
    exact absurd (h.unique 1 2 rfl rfl) (by decide)
  · obtain ⟨s, hs, h⟩ := Option.map_eq_some_iff.mp (by decide +kernel :
      (lkmAsyncDriver.machine.run lkmLosingRun).map (fun s =>
        (pushedSince s.history, poppedSince s.history, s.dev.content)) =
      some ([7, 9], [], [9, 0]))
    simp only [Prod.mk.injEq] at h
    exact ⟨s, hs, h⟩

end LinuxDriver
