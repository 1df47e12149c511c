import LinuxDriver.Fifo.Machine

/-!
# Mutual exclusion in a FIFO driver

A task is inside from its `mutex_lock` to its next `mutex_unlock`. A `mutex_unlock` behind an exit
label may also be run by a task that is not inside; it is an *intrusion* when some task is inside
at that moment. Without intrusions the flag of the mutex is set exactly while a task is inside, and
at most one is (`Fifo.Exclusive`). Whatever happens, the statements that touch the bytes and their
number are run by tasks that are inside (`Fifo.critical`).

## Main definitions

* `Fifo.critical`: the statements between a lock and the next unlock outside the exit labels.
* `Fifo.Exclusive`, `Fifo.NoIntrusion`.

## Main results

* `Fifo.lockEffect_of_stmt`: what a statement does to the mutex.
* `Fifo.CriticalInside.next`, `Fifo.Exclusive.next`: the step lemmas.
* `Fifo.exclusive_of_obeys`: mutual exclusion in every run without intrusions.
-/

namespace LinuxDriver

namespace Fifo

variable {D : FifoDriver} {s s' : State} {a : Action} {t : ℕ}

/-- The statements that are run between a lock and the next unlock, exit labels apart. -/
def critical : Pc → Prop
  | .enqueue .. | .test .. | .prepare .. | .release .. | .copy .. | .shift .. | .update ..
  | .wake .. | .pollBody | .clearBody => True
  | _ => False

/-- A task at a critical statement is inside. -/
def CriticalInside (s : State) : Prop := ∀ t, critical (s.pc t) → s.inside t = true

/-- The mutex is held by the only task inside, or is free and no task is inside. -/
structure Exclusive (s : State) : Prop where
  mutex_iff : s.mutex = true ↔ ∃ t, s.inside t = true
  unique : ∀ t u, s.inside t = true → s.inside u = true → t = u

/-- The step is no intrusion: a task that runs `mutex_unlock` behind an exit label is inside, or
no task is. -/
def NoIntrusion (s : State) (a : Action) : Prop :=
  ∀ t d rest ret, a = .step t → s.pc t = .exit d (.mutexUnlock :: rest) ret →
    s.inside t = true ∨ ∀ u, s.inside u = false

/-! ### What a step does to the mutex -/

/-- The three things that an action about task `t` can do to the mutex. -/
inductive LockEffect (s : State) (a : Action) (s' : State) : Prop
  | acquire (hfree : s.mutex = false) (hmutex : s'.mutex = true)
      (hinside : s'.inside = Function.update s.inside a.task true)
      (hstray : s'.strayUnlock = s.strayUnlock)
  | release {t : ℕ} (ha : a = .step t)
      (hpc : critical (s.pc t) ∨ ∃ d rest ret, s.pc t = .exit d (.mutexUnlock :: rest) ret)
      (hpc' : ¬critical (s'.pc t)) (hmutex : s'.mutex = false)
      (hinside : s'.inside = Function.update s.inside t false)
      (hstray : s'.strayUnlock = (s.strayUnlock || !s.inside t))
  | keep (hpc' : critical (s'.pc a.task) → critical (s.pc a.task)) (hmutex : s'.mutex = s.mutex)
      (hinside : s'.inside = s.inside) (hstray : s'.strayUnlock = s.strayUnlock)

@[simp] theorem not_critical_leaveBy (d : Direction) (label : List ExitStmt) (ret : ℤ) :
    ¬critical (D.leaveBy d label ret) := id

theorem lockEffect_of_stmt (h : Stmt D s t s') : LockEffect s (.step t) s' := by
  cases h with
  | lock hpc hfree | relock hpc hfree | pollLock hpc hfree | clearLock hpc hfree =>
    exact .acquire hfree rfl rfl rfl
  | release hpc =>
    exact .release rfl (.inl (by simp [hpc, critical])) (by simp [critical]) rfl rfl rfl
  | @exit d x rest ret hpc =>
    have hpc' : ¬critical (((s.exitStmt t d x).goto t (.exit d rest ret)).pc t) := by
      simp [critical]
    cases x with
    | mutexUnlock => exact .release rfl (.inr ⟨d, rest, ret, hpc⟩) hpc' rfl rfl rfl
    | removeWaitQueue head => cases d <;> exact .keep (absurd · hpc') rfl rfl rfl
    | setRunning => exact .keep (absurd · hpc') rfl rfl rfl
  | enqueue hpc | again hpc | wait hpc | ready hpc | prepare hpc | copy hpc | shift hpc
  | update hpc | wake hpc | pollBody hpc | clearBody hpc =>
    exact .keep (fun _ => by simp [Action.task, hpc, critical]) rfl rfl rfl
  | sleep hpc | noSleep hpc | awake hpc | rearm hpc | leave hpc =>
    exact .keep (absurd · (by simp [Action.task, critical])) rfl rfl rfl
  | signal hpc => exact .keep (absurd · (by simp [Action.task])) rfl rfl rfl
  | noSignal hpc =>
    refine .keep (absurd · ?_) rfl rfl rfl
    cases (D.code _).rearms <;> simp [Action.task, critical]

theorem lockEffect_of_next (h : D.next s a = some s') : LockEffect s a s' := by
  obtain ⟨t, call, p, rfl, hpc, hp, rfl⟩ | ⟨t, rfl, hstmt⟩ | ⟨t, rfl, rfl⟩ := next_cases h
  · refine .keep (absurd · ?_) rfl rfl rfl
    obtain ⟨d, c, -, rfl⟩ | rfl | rfl | rfl := entry_cases hp <;>
      simp [Action.task, critical]
  · exact lockEffect_of_stmt hstmt
  · exact .keep id rfl rfl rfl

/-! ### The step lemmas -/

theorem CriticalInside.next (hs : CriticalInside s) (h : D.next s a = some s') :
    CriticalInside s' := by
  intro u hu
  by_cases hut : u = a.task
  · subst hut
    cases lockEffect_of_next h with
    | acquire hfree hmutex hinside => simp [hinside]
    | release ha hpc hpc' => subst ha; exact absurd hu hpc'
    | keep hpc' hmutex hinside => rw [hinside]; exact hs _ (hpc' hu)
  · rw [pc_of_ne h hut] at hu
    have huin : s.inside u = true := hs u hu
    cases lockEffect_of_next h with
    | acquire hfree hmutex hinside | keep hpc' hmutex hinside => simp [hinside, hut, huin]
    | @release t ha hpc hpc' hmutex hinside =>
      subst ha
      have hut : u ≠ t := hut
      rw [hinside, Function.update_of_ne hut, huin]

/-- **The step lemma of mutual exclusion.** -/
theorem Exclusive.next (hs : Exclusive s) (hin : CriticalInside s) (hC : NoIntrusion s a)
    (h : D.next s a = some s') : Exclusive s' := by
  cases lockEffect_of_next h with
  | acquire hfree hmutex hinside =>
    have hout : ∀ u, s.inside u = false := by
      intro u
      by_contra hu
      have := hs.mutex_iff.mpr ⟨u, by simpa using hu⟩
      simp [hfree] at this
    constructor
    · simp only [hmutex, true_iff]
      exact ⟨a.task, by simp [hinside]⟩
    · intro u v hu hv
      rw [hinside, Function.update_apply] at hu hv
      split_ifs at hu hv with hut hvt
      · exact hut.trans hvt.symm
      all_goals simp_all
  | @release t ha hpc hpc' hmutex hinside =>
    subst ha
    have hout : ∀ u, u ≠ t → s.inside u = false := by
      intro u hut
      have hown : s.inside t = true ∨ ∀ u, s.inside u = false := by
        obtain hcrit | ⟨d, rest, ret, hexit⟩ := hpc
        · exact .inl (hin t hcrit)
        · exact hC t d rest ret rfl hexit
      obtain ht | hall := hown
      · by_contra hu
        exact hut (hs.unique u t (by simpa using hu) ht)
      · exact hall u
    have hnone : ∀ u, s'.inside u = false := by
      intro u
      by_cases hut : u = t
      · simp [hinside, hut]
      · simpa [hinside, hut] using hout u hut
    constructor
    · simp [hmutex, hnone]
    · simp [hnone]
  | keep hpc' hmutex hinside =>
    constructor
    · rw [hmutex, hinside]
      exact hs.mutex_iff
    · rw [hinside]
      exact hs.unique

/-! ### Runs -/

theorem exclusive_init : Exclusive D.machine.init :=
  ⟨by simp [FifoDriver.machine], by simp [FifoDriver.machine]⟩

theorem criticalInside_init : CriticalInside D.machine.init := fun _ ht => ht.elim

/-- **Mutual exclusion.** In every run without intrusions, every state passed is exclusive. -/
theorem exclusive_of_obeys {as : List Action}
    (hC : D.machine.Obeys NoIntrusion D.machine.init as) :
    D.machine.Always Exclusive D.machine.init as := by
  refine D.machine.always_of_obeys (I := fun s => Exclusive s ∧ CriticalInside s) ?_
    (fun s hs => hs.1) ⟨exclusive_init, criticalInside_init⟩ hC
  intro s a s' ⟨hexcl, hin⟩ hC h
  exact ⟨hexcl.next hin hC h, hin.next h⟩

end Fifo

end LinuxDriver
