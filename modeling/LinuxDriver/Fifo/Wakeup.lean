import LinuxDriver.Fifo.Discipline

/-!
# Wake-ups in a disciplined FIFO driver

A task that has set its state to `TASK_INTERRUPTIBLE` stays in it until it is woken or finds in
`schedule()` that it need not sleep. It does so with the mutex held and only after it has found
the device blocked for its direction. Afterwards only an update of the other direction can unblock
the device, and the task that makes it goes on to wake the queue; `FIFO_CLEAR` empties the device
for readers, but makes space for writers and wakes nobody.

## Main definitions

* `Fifo.dozing`: the task may go to sleep, or is asleep.
* `Fifo.Woken`: the invariant.
* `Fifo.ClearWithoutWriters`: the condition on `FIFO_CLEAR`.
* `Fifo.NoLostWakeup`: a task asleep is blocked whenever the mutex is free.

## Main results

* `Fifo.Woken.next`: the step lemma.
* `Fifo.noLostWakeup_of_obeys`: no lost wake-up under the condition.
* `Fifo.exists_lost_of_clear`: a step that violates the condition leads to a lost wake-up.
-/

namespace LinuxDriver

/-- All labels of a driver are balanced. -/
structure FifoDriver.Balanced (D : FifoDriver) : Prop where
  onAgain : ∀ d, ExitLabel.Balanced 1 (D.code d).onAgain
  onSignal : ∀ d, ExitLabel.Balanced 0 (D.code d).onSignal
  onFault : ∀ d, ExitLabel.Balanced 1 (D.code d).onFault
  onDone : ∀ d, ExitLabel.Balanced 1 (D.code d).onDone

namespace Fifo

variable {D : FifoDriver} {s s' : State} {a : Action} {t u : ℕ} {d : Direction}

theorem tidy_of_balanced (hD : D.Balanced) (s : State) (a : Action) : Tidy D s a := by
  cases a with
  | enter t call | signal t => trivial
  | step t =>
    simp only [Tidy]
    cases s.pc t with
    | test d c => exact fun _ _ => hD.onAgain d
    | signalTest d c => exact fun _ => hD.onSignal d
    | copy d c => exact fun _ => hD.onFault d
    | wake d n => exact hD.onDone d
    | _ => trivial

/-! ### The invariant -/

/-- The task waits in direction `d` and has announced its sleep. -/
def dozing (d : Direction) : Pc → Prop
  | .release e _ | .schedule e _ | .asleep e _ => e = d
  | _ => False

variable (D) in
/-- A task in the state `TASK_INTERRUPTIBLE` is dozing; a task asleep in this state has no signal
pending; and if a dozing task has none, either the device is blocked for it or the task that has
unblocked the device is about to wake its queue. -/
structure Woken (s : State) : Prop where
  exists_dozing : ∀ t, s.taskState t = .interruptible → ∃ d, dozing d (s.pc t)
  noSignal : ∀ t d c, s.pc t = .asleep d c → s.taskState t = .interruptible →
    s.sigPending t = false
  reason : ∀ t d, s.taskState t = .interruptible → s.sigPending t = false → dozing d (s.pc t) →
    D.blocked d s.dev.len ∨ ∃ u n, s.pc u = .wake d.other n

/-- The next statement empties the device for `FIFO_CLEAR`. -/
def clears : Pc → Bool
  | .clearBody => true
  | _ => false

/-- When `FIFO_CLEAR` empties the device, the tasks on `w_wait` are running or have a signal
pending. -/
def ClearWithoutWriters (s : State) : Action → Prop
  | .step t => clears (s.pc t) = true →
    ∀ u ∈ s.waiters .write, s.taskState u = .interruptible → s.sigPending u = true
  | _ => True

instance (s : State) : (a : Action) → Decidable (ClearWithoutWriters s a)
  | .step t =>
    inferInstanceAs (Decidable
      (clears (s.pc t) = true →
        ∀ u ∈ s.waiters .write, s.taskState u = .interruptible → s.sigPending u = true))
  | .enter .. | .signal _ => isTrue trivial

/-! ### One step -/

theorem entries_of_dozing {p : Pc} (hp : dozing d p) : entries d p = 1 := by
  cases p <;> simp_all [dozing, entries]

/-- A dozing task is on the queue of its direction. -/
theorem Disciplined.mem_waiters (hs : Disciplined s) (ht : dozing d (s.pc t)) :
    t ∈ s.waiters d := by
  have hcount : (s.waiters d).count t = 1 := by rw [← hs.entries_eq, entries_of_dozing ht]
  exact List.count_pos_iff.mp (by omega)

/-- A step blocks no device for a direction and unblocks one only in an update or a clearing. -/
theorem blocked_of_stmt (h : Stmt D s t s') (hlen : s.dev.len ≤ D.layout.size)
    (hfits : Fits D s.dev (s.pc t)) (hclear : s.pc t = .clearBody → d = .read)
    (hb : D.blocked d s.dev.len) :
    D.blocked d s'.dev.len ∨ ∃ n, s'.pc t = .wake d.other n := by
  cases h with
  | @copy e c hpc =>
    left
    simpa using hb
  | @update e n data hpc =>
    rw [hpc] at hfits
    cases d <;> cases e
    · obtain ⟨hn, -⟩ : n ≤ s.dev.len ∧ _ := hfits
      have hread := FifoDev.len_consume D.layout hlen hn
      have hempty : s.dev.len = 0 := hb
      left
      simp [FifoDriver.blocked, FifoDriver.updateStmt, hread, hempty]
    · exact .inr ⟨n, by simp [Direction.other]⟩
    · exact .inr ⟨n, by simp [Direction.other]⟩
    · obtain ⟨hn, -⟩ : n ≤ D.layout.size - s.dev.len ∧ _ := hfits
      have hfull : s.dev.len = D.layout.size := hb
      have hwrite : (s.dev.produce D.layout n).len = s.dev.len + n :=
        FifoDev.len_produce D.layout (by omega)
      left
      simp only [FifoDriver.blocked, FifoDriver.updateStmt, State.goto_dev, hwrite]
      omega
  | clearBody hpc =>
    obtain rfl := hclear hpc
    exact .inl rfl
  | _ => exact .inl (by simpa using hb)

/-- A step puts no other task in the state `TASK_INTERRUPTIBLE`. -/
theorem taskState_of_next (h : D.next s a = some s') (hu : u ≠ a.task)
    (hstate : s'.taskState u = .interruptible) : s.taskState u = .interruptible := by
  obtain ⟨t, call, p, rfl, hpc, hp, rfl⟩ | ⟨t, rfl, hstmt⟩ | ⟨t, rfl, rfl⟩ := next_cases h
  · exact hstate
  · have hut : u ≠ t := hu
    cases hstmt with
    | prepare hpc | noSleep hpc | rearm hpc => simpa [hut] using hstate
    | wake hpc =>
      simp only [State.goto_taskState, State.wakeUpInterruptible_taskState] at hstate
      split_ifs at hstate
      exact hstate
    | @exit d x rest ret hpc =>
      cases x with
      | mutexUnlock => exact hstate
      | removeWaitQueue head => cases d <;> exact hstate
      | setRunning => simpa [State.exitStmt, hut] using hstate
    | _ => exact hstate
  · simpa [show u ≠ t from hu] using hstate

/-- A task that is in the state `TASK_INTERRUPTIBLE` after a statement of its own has just set it,
with the device blocked, or was in it before, at a statement of its sleep. -/
theorem dozing_of_stmt (h : Stmt D s t s')
    (hold : s.taskState t = .interruptible → ∃ d, dozing d (s.pc t))
    (hstate : s'.taskState t = .interruptible) :
    ∃ d, dozing d (s'.pc t) ∧ ((∃ c, s.pc t = .prepare d c) ∨
      s.taskState t = .interruptible ∧ dozing d (s.pc t)) := by
  have hother : s.taskState t = .interruptible → (∀ d, ¬dozing d (s.pc t)) → False := by
    intro hstate hpc
    obtain ⟨d, hd⟩ := hold hstate
    exact hpc d hd
  cases h with
  | @prepare d c hpc => exact ⟨d, by simp [dozing], .inl ⟨c, hpc⟩⟩
  | @release d c hpc | @sleep d c hpc =>
    exact ⟨d, by simp [dozing], .inr ⟨hstate, by simp [hpc, dozing]⟩⟩
  | noSleep hpc | rearm hpc => simp at hstate
  | awake hpc hrunning => simp [hrunning] at hstate
  | wake hpc =>
    simp only [State.goto_taskState, State.wakeUpInterruptible_taskState] at hstate
    split_ifs at hstate
    exact (hother hstate (by simp [hpc, dozing])).elim
  | @exit d x rest ret hpc =>
    cases x with
    | mutexUnlock => exact (hother hstate (by simp [hpc, dozing])).elim
    | removeWaitQueue head =>
      cases d <;> exact (hother hstate (by simp [hpc, dozing])).elim
    | setRunning => simp [State.exitStmt] at hstate
  | lock hpc | enqueue hpc | again hpc | wait hpc | ready hpc | signal hpc | noSignal hpc
  | relock hpc | copy hpc | shift hpc | update hpc | pollLock hpc | pollBody hpc | clearLock hpc
  | clearBody hpc | leave hpc => exact (hother hstate (by simp [hpc, dozing])).elim

/-- A task that is about to wake a queue does so. -/
theorem taskState_of_wake (h : Stmt D s t s') {n : ℕ} (hpc : s.pc t = .wake d.other n)
    (hu : u ∈ s.waiters d) : s'.taskState u = .running := by
  cases h with
  | @wake e m hpc' =>
    obtain ⟨rfl, -⟩ : d.other = e ∧ n = m := by simpa [hpc] using hpc'
    have hother : d.other.other = d := by cases d <;> rfl
    simp [hother, hu]
  | _ => simp_all

theorem dozing_unique {e : Direction} {p : Pc} (hd : dozing d p) (he : dozing e p) : d = e := by
  cases p <;> simp_all [dozing]

/-- An action about one task leaves the pending signals of the others. -/
theorem sigPending_of_ne (h : D.next s a = some s') (hu : u ≠ a.task) :
    s'.sigPending u = s.sigPending u := by
  obtain ⟨t, call, p, rfl, hpc, hp, rfl⟩ | ⟨t, rfl, hstmt⟩ | ⟨t, rfl, rfl⟩ := next_cases h
  · rfl
  · cases hstmt with
    | @exit e x rest ret hpc => cases x <;> cases e <;> rfl
    | leave hpc => simp [show u ≠ t from hu]
    | _ => rfl
  · simp [show u ≠ t from hu]

/-- A dozing task that has no signal pending had none before the step. -/
theorem sigPending_of_dozing (h : D.next s a = some s') (hdoz : dozing d (s'.pc u))
    (hsig : s'.sigPending u = false) : s.sigPending u = false := by
  by_cases hu : u = a.task
  · subst hu
    obtain ⟨t, call, p, rfl, hpc, hp, rfl⟩ | ⟨t, rfl, hstmt⟩ | ⟨t, rfl, rfl⟩ := next_cases h
    · exact hsig
    · cases hstmt with
      | @exit e x rest ret hpc => cases x <;> cases e <;> exact hsig
      | leave hpc => simp [Action.task, dozing] at hdoz
      | _ => exact hsig
    · simp [Action.task] at hsig
  · rw [← sigPending_of_ne h hu, hsig]

/-- The task whose step leaves it in the state `TASK_INTERRUPTIBLE` has taken a statement of its
call: an entry finds it running, and a signal makes it runnable. -/
theorem Woken.stmt_of_interruptible (hs : Woken D s) (h : D.next s a = some s')
    (hstate : s'.taskState a.task = .interruptible) : Stmt D s a.task s' := by
  obtain ⟨t, call, p, rfl, hpc, hp, rfl⟩ | ⟨t, rfl, hstmt⟩ | ⟨t, rfl, rfl⟩ := next_cases h
  · obtain ⟨e, he⟩ := hs.exists_dozing t hstate
    simp [hpc, dozing] at he
  · exact hstmt
  · simp [Action.task] at hstate

/-- A task found dozing in the state `TASK_INTERRUPTIBLE` was so before the step, or has just set
the state with the device blocked. -/
theorem Woken.before (hs : Woken D s) (h : D.next s a = some s')
    (hstate : s'.taskState u = .interruptible) (hdoz : dozing d (s'.pc u)) :
    (∃ c, s.pc u = .prepare d c) ∨ s.taskState u = .interruptible ∧ dozing d (s.pc u) := by
  by_cases hu : u = a.task
  · subst hu
    have hstmt := hs.stmt_of_interruptible h hstate
    obtain ⟨e, he, hbefore⟩ := dozing_of_stmt hstmt (hs.exists_dozing _) hstate
    obtain rfl : d = e := dozing_unique hdoz he
    exact hbefore
  · rw [pc_of_ne h hu] at hdoz
    exact .inr ⟨taskState_of_next h hu hstate, hdoz⟩

/-- A device that is blocked for a dozing task without a signal stays so, or the task that unblocks
it goes on to wake the queue: `FIFO_CLEAR`, which does not, meets no such writer. -/
theorem reason_of_blocked (hsound : Sound D s) (hdisc : Disciplined s)
    (hC : ClearWithoutWriters s a) (h : D.next s a = some s')
    (hbefore : (∃ c, s.pc u = .prepare d c) ∨
      s.taskState u = .interruptible ∧ dozing d (s.pc u))
    (hsig : s.sigPending u = false) (hb : D.blocked d s.dev.len) :
    D.blocked d s'.dev.len ∨ ∃ v n, s'.pc v = .wake d.other n := by
  obtain ⟨t, call, p, rfl, hpc, hp, rfl⟩ | ⟨t, rfl, hstmt⟩ | ⟨t, rfl, rfl⟩ := next_cases h
  · exact .inl hb
  · have hclear : s.pc t = .clearBody → d = .read := by
      intro hpc
      cases d with
      | read => rfl
      | write =>
        obtain ⟨c, hprep⟩ | ⟨hold, hdoz⟩ := hbefore
        · -- The writer that is about to sleep and the task that clears are both inside.
          obtain rfl : u = t :=
            hsound.eq_of_critical (by simp [hprep, critical]) (by simp [hpc, critical])
          simp [hpc] at hprep
        · have hpending := hC (by simp [hpc, clears]) u (hdisc.mem_waiters hdoz) hold
          simp [hsig] at hpending
    obtain hb' | ⟨n, hn⟩ := blocked_of_stmt hstmt hsound.len_le (hsound.fits t) hclear hb
    · exact .inl hb'
    · exact .inr ⟨t, n, hn⟩
  · exact .inl hb

/-- A task that is about to wake the queue of a dozing task stays there, or wakes it. -/
theorem reason_of_wake {v n : ℕ} (hsound : Sound D s) (hdisc : Disciplined s)
    (h : D.next s a = some s') (hstate : s'.taskState u = .interruptible)
    (hbefore : (∃ c, s.pc u = .prepare d c) ∨
      s.taskState u = .interruptible ∧ dozing d (s.pc u))
    (hv : s.pc v = .wake d.other n) : s'.pc v = .wake d.other n := by
  by_cases hvt : v = a.task
  · subst hvt
    obtain ⟨t, call, p, rfl, hpc, hp, rfl⟩ | ⟨t, rfl, hstmt⟩ | ⟨t, rfl, rfl⟩ := next_cases h
    · simp [Action.task, hpc] at hv
    · have hpc : s.pc t = .wake d.other n := hv
      obtain ⟨c, hprep⟩ | ⟨hold, hdoz⟩ := hbefore
      · obtain rfl : u = t :=
          hsound.eq_of_critical (by simp [hprep, critical]) (by simp [hpc, critical])
        simp [hpc] at hprep
      · have hrunning := taskState_of_wake hstmt hpc (hdisc.mem_waiters hdoz)
        simp [hstate] at hrunning
    · exact hv
  · rw [pc_of_ne h hvt, hv]

/-- **The step lemma.** -/
theorem Woken.next (hs : Woken D s) (hsound : Sound D s) (hdisc : Disciplined s)
    (hC : ClearWithoutWriters s a) (h : D.next s a = some s') : Woken D s' where
  exists_dozing u hstate := by
    by_cases hu : u = a.task
    · subst hu
      have hstmt := hs.stmt_of_interruptible h hstate
      obtain ⟨e, he, -⟩ := dozing_of_stmt hstmt (hs.exists_dozing _) hstate
      exact ⟨e, he⟩
    · rw [pc_of_ne h hu]
      exact hs.exists_dozing u (taskState_of_next h hu hstate)
  noSignal u d c hpc' hstate := by
    by_cases hu : u = a.task
    · subst hu
      cases hs.stmt_of_interruptible h hstate with
      | sleep hpc hold hsig => exact hsig
      | @copy e k hpc => cases e <;> cases hcopy : k.copy <;>
          simp [FifoDriver.copyStmt, FifoDriver.leaveBy, hcopy] at hpc'
      | noSignal hpc => cases hrearms : (D.code _).rearms <;> simp [hrearms] at hpc'
      | _ => simp [FifoDriver.leaveBy] at hpc'
    · have hold := taskState_of_next h hu hstate
      rw [pc_of_ne h hu] at hpc'
      rw [sigPending_of_ne h hu]
      exact hs.noSignal u d c hpc' hold
  reason u d hstate hsig hdoz := by
    have hbefore := hs.before h hstate hdoz
    have hold_sig := sigPending_of_dozing h hdoz hsig
    have hreason : D.blocked d s.dev.len ∨ ∃ v n, s.pc v = .wake d.other n := by
      obtain ⟨c, hpc⟩ | ⟨hold, hdoz⟩ := hbefore
      · have hfits := hsound.fits u
        rw [hpc] at hfits
        exact .inl hfits
      · exact hs.reason u d hold hold_sig hdoz
    obtain hb | ⟨v, n, hv⟩ := hreason
    · exact reason_of_blocked hsound hdisc hC h hbefore hold_sig hb
    · exact .inr ⟨v, n, reason_of_wake hsound hdisc h hstate hbefore hv⟩

/-! ### Runs -/

variable (D) in
/-- While the mutex is free, a task asleep that was not made runnable finds the device blocked for
its direction. -/
def NoLostWakeup (s : State) : Prop :=
  s.mutex = false → ∀ t d c, s.pc t = .asleep d c → s.taskState t = .interruptible →
    D.blocked d s.dev.len

theorem Woken.noLostWakeup (hs : Woken D s) (hsound : Sound D s) : NoLostWakeup D s := by
  intro hfree t d c hpc hstate
  have hsig := hs.noSignal t d c hpc hstate
  obtain hb | ⟨u, n, hu⟩ := hs.reason t d hstate hsig (by simp [hpc, dozing])
  · exact hb
  · have hin := hsound.criticalInside u (by simp [hu, critical])
    have hheld := hsound.exclusive.mutex_iff.mpr ⟨u, hin⟩
    simp [hfree] at hheld

theorem woken_init : Woken D D.machine.init where
  exists_dozing _ h := by simp [FifoDriver.machine] at h
  noSignal _ _ _ h := by simp [FifoDriver.machine] at h
  reason _ _ h := by simp [FifoDriver.machine] at h

variable (D) in
/-- The invariant of the runs of a balanced driver under the condition on `FIFO_CLEAR`. -/
structure WakeInv (s : State) : Prop where
  sound : Sound D s
  disciplined : Disciplined s
  woken : Woken D s

theorem wakeInv_init : WakeInv D D.machine.init := ⟨sound_init, disciplined_init, woken_init⟩

theorem WakeInv.next (hD : D.Balanced) (hs : WakeInv D s) (hC : ClearWithoutWriters s a)
    (h : D.next s a = some s') : WakeInv D s' where
  sound := hs.sound.next (hs.disciplined.noIntrusion a) h
  disciplined := hs.disciplined.next (tidy_of_balanced hD s a) h
  woken := hs.woken.next hs.sound hs.disciplined hC h

/-- **No lost wake-up.** In a driver whose labels are balanced, every state passed by a run in
which `FIFO_CLEAR` empties the device only without writers asleep is free of lost wake-ups. -/
theorem noLostWakeup_of_obeys (hD : D.Balanced) {as : List Action}
    (hC : D.machine.Obeys ClearWithoutWriters D.machine.init as) :
    D.machine.Always (NoLostWakeup D) D.machine.init as :=
  D.machine.always_of_obeys (I := WakeInv D) (fun _ _ _ hs hC h => hs.next hD hC h)
    (fun _ hs => hs.woken.noLostWakeup hs.sound) wakeInv_init hC

/-! ### The condition is needed -/

/-- The state after `FIFO_CLEAR` has emptied the device and unlocked the mutex. -/
def cleared (D : FifoDriver) (s : State) (t : ℕ) : State :=
  (({ s with dev := s.dev.clear D.layout, history := .cleared :: s.history }.goto t
    (.exit none [.mutexUnlock] 0)).mutexUnlock t).goto t (.exit none [] 0)

theorem runFrom_cleared (hpc : s.pc t = .clearBody) :
    D.machine.runFrom s [.step t, .step t] = some (cleared D s t) := by
  simp [Lts.runFrom, FifoDriver.machine, FifoDriver.next, FifoDriver.stmt, hpc, cleared,
    State.exitStmt]

/-- **`FIFO_CLEAR` loses wake-ups.** From every state of such a run in which `FIFO_CLEAR` is about
to empty the device while a task on `w_wait` sleeps or is going to, a lost wake-up is reached. -/
theorem exists_lost_of_clear (hs : WakeInv D s) (hsize : 0 < D.layout.size)
    (hpc : s.pc t = .clearBody) (hu : u ∈ s.waiters .write)
    (hstate : s.taskState u = .interruptible) (hsig : s.sigPending u = false) :
    ∃ bs s', D.machine.runFrom s bs = some s' ∧ ¬NoLostWakeup D s' := by
  have hut : u ≠ t := by
    rintro rfl
    obtain ⟨e, he⟩ := hs.woken.exists_dozing u hstate
    simp [hpc, dozing] at he
  have hdoz : dozing .write (s.pc u) := by
    obtain ⟨e, he⟩ := hs.woken.exists_dozing u hstate
    have hcount : 0 < (s.waiters .write).count u := List.count_pos_iff.mpr hu
    rw [← hs.disciplined.entries_eq] at hcount
    cases e with
    | write => exact he
    | read => cases h : s.pc u <;> simp_all [dozing, entries]
  have hlost : ∀ s', s'.mutex = false → s'.dev.len = 0 →
      (∃ c, s'.pc u = .asleep .write c) → s'.taskState u = .interruptible →
      ¬NoLostWakeup D s' := by
    rintro s' hfree hlen ⟨c, hasleep⟩ hstate hno
    have hb : s'.dev.len = D.layout.size := hno hfree u .write c hasleep hstate
    omega
  cases hpcu : s.pc u with
  | release e c =>
    exact absurd (hs.sound.eq_of_critical (by simp [hpcu, critical]) (by simp [hpc, critical])) hut
  | schedule e c =>
    obtain rfl : e = .write := by simpa [hpcu, dozing] using hdoz
    refine ⟨[.step t, .step t, .step u], (cleared D s t).goto u (.asleep .write c), ?_,
      hlost _ rfl rfl ⟨c, by simp⟩ hstate⟩
    have hrun := runFrom_cleared (D := D) hpc
    rw [show ([.step t, .step t, .step u] : List Action) = [.step t, .step t] ++ [.step u] from
      rfl, Lts.runFrom_append, hrun]
    simp [Lts.runFrom, FifoDriver.machine, FifoDriver.next, FifoDriver.stmt, cleared, hut, hpcu,
      hstate, hsig]
  | asleep e c =>
    obtain rfl : e = .write := by simpa [hpcu, dozing] using hdoz
    exact ⟨[.step t, .step t], cleared D s t, runFrom_cleared hpc,
      hlost _ rfl rfl ⟨c, by simp [cleared, hut, hpcu]⟩ hstate⟩
  | _ => simp [hpcu, dozing] at hdoz

end Fifo

end LinuxDriver
