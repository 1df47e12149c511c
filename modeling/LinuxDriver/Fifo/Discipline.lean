import LinuxDriver.Fifo.Conservation

/-!
# Lock and wait-queue discipline

A call that leaves through a label with the mutex held must find exactly one `mutex_unlock` behind
it, a call that leaves after a signal in its sleep must find none, and both must find exactly one
`remove_wait_queue`. While every label taken is balanced in this sense, the mutex is unlocked by
the tasks that locked it, and a task that has returned holds no mutex and is on no queue.

The count of the statements still to come behind a label carries the invariant: a task inside owes
one `mutex_unlock` (`Fifo.owes`), and its entry is on a queue as often as the queue is still to be
left (`Fifo.entries`).

## Main definitions

* `ExitLabel.Balanced`, `Fifo.Tidy`: the label that a step goes to is balanced.
* `Fifo.owes`, `Fifo.entries`, `Fifo.Disciplined`: the invariant.
* `Fifo.rank`: how far a task inside is from its next `mutex_unlock`.

## Main results

* `Fifo.Disciplined.next`: the step lemma.
* `Fifo.Disciplined.noIntrusion`: a disciplined system has no intrusions.
* `Fifo.exists_release`: a task inside can always go on until the mutex is free.
-/

namespace LinuxDriver

/-- The statement takes the entry of the task off its queue. -/
def ExitStmt.isRemove : ExitStmt → Bool
  | .removeWaitQueue _ => true
  | _ => false

/-- The label has `unlocks` statements `mutex_unlock` and one `remove_wait_queue`. -/
def ExitLabel.Balanced (unlocks : ℕ) (label : List ExitStmt) : Prop :=
  label.count .mutexUnlock = unlocks ∧ label.countP ExitStmt.isRemove = 1

instance (unlocks : ℕ) (label : List ExitStmt) : Decidable (ExitLabel.Balanced unlocks label) :=
  inferInstanceAs (Decidable (_ ∧ _))

namespace Fifo

variable {D : FifoDriver} {s s' : State} {a : Action} {t : ℕ}

/-! ### The invariant -/

/-- How many `mutex_unlock` a task still has to run before it returns or waits for the mutex. -/
def owes : Pc → ℕ
  | .exit _ rest _ => rest.count .mutexUnlock
  | .enqueue .. | .test .. | .prepare .. | .release .. | .copy .. | .shift .. | .update ..
  | .wake .. | .pollBody | .clearBody => 1
  | _ => 0

/-- How often the entry of a task is on the queue of `d`. -/
def entries (d : Direction) : Pc → ℕ
  | .test e _ | .prepare e _ | .release e _ | .schedule e _ | .asleep e _ | .signalTest e _
  | .rearm e _ | .relock e _ | .copy e _ | .update e _ _ | .wake e _ => if e = d then 1 else 0
  | .shift .. => if .read = d then 1 else 0
  | .exit (some e) rest _ => if e = d then rest.countP ExitStmt.isRemove else 0
  | _ => 0

/-- The invariant of the runs that take balanced labels only. -/
structure Disciplined (s : State) : Prop where
  owes_eq : ∀ t, owes (s.pc t) = (s.inside t).toNat
  entries_eq : ∀ t d, entries d (s.pc t) = (s.waiters d).count t
  strayUnlock_eq : s.strayUnlock = false

variable (D) in
/-- The label that a step of a task goes to, if it goes to one, is balanced. -/
def Tidy (s : State) : Action → Prop
  | .step t =>
    match s.pc t with
    | .test d c =>
      D.blocked d s.dev.len → c.nonblock = true → ExitLabel.Balanced 1 (D.code d).onAgain
    | .signalTest d _ => s.sigPending t = true → ExitLabel.Balanced 0 (D.code d).onSignal
    | .copy d c => c.copy ≠ .copied → ExitLabel.Balanced 1 (D.code d).onFault
    | .wake d _ => ExitLabel.Balanced 1 (D.code d).onDone
    | _ => True
  | _ => True

/-! ### One step -/

/-- What a step leaves to the other tasks. -/
theorem frame_of_next (h : D.next s a = some s') {u : ℕ} (hu : u ≠ a.task) :
    s'.pc u = s.pc u ∧ s'.inside u = s.inside u ∧
      ∀ d, (s'.waiters d).count u = (s.waiters d).count u := by
  refine ⟨pc_of_ne h hu, ?_, fun d => ?_⟩
  · cases lockEffect_of_next h with
    | acquire hfree hmutex hinside => rw [hinside, Function.update_of_ne hu]
    | release ha hpc hpc' hmutex hinside =>
      subst ha
      rw [hinside]
      exact Function.update_of_ne hu ..
    | keep hpc' hmutex hinside => rw [hinside]
  · obtain ⟨t, call, p, rfl, hpc, hp, rfl⟩ | ⟨t, rfl, hstmt⟩ | ⟨t, rfl, rfl⟩ := next_cases h
    · rfl
    · have hut : u ≠ t := hu
      cases hstmt with
      | @enqueue e c hpc =>
        by_cases hd : d = e
        · simp [hd, List.count_cons_of_ne (Ne.symm hut)]
        · simp [hd]
      | @exit e x rest ret hpc =>
        cases x with
        | removeWaitQueue head =>
          cases e with
          | none => rfl
          | some e =>
            by_cases hd : d = e
            · simp [State.exitStmt, hd, List.count_erase_of_ne hut]
            · simp [State.exitStmt, hd]
        | _ => rfl
      | _ => rfl
    · rfl

/-- A step of a task that takes a balanced label keeps what it owes. -/
theorem owes_of_stmt (h : Stmt D s t s') (hC : Tidy D s (.step t))
    (howes : owes (s.pc t) = (s.inside t).toNat) :
    owes (s'.pc t) = (s'.inside t).toNat ∧ s'.strayUnlock = s.strayUnlock := by
  cases h with
  | again hpc hblocked hnb =>
    simp only [Tidy, hpc] at hC
    simpa [hpc, FifoDriver.leaveBy, owes, (hC hblocked hnb).1] using howes
  | signal hpc hsig =>
    simp only [Tidy, hpc] at hC
    simpa [hpc, FifoDriver.leaveBy, owes, (hC hsig).1] using howes
  | wake hpc =>
    simp only [Tidy, hpc] at hC
    simpa [hpc, FifoDriver.leaveBy, owes, hC.1] using howes
  | @copy d c hpc =>
    simp only [Tidy, hpc] at hC
    cases hcopy : c.copy with
    | copied => cases d <;> simpa [hpc, FifoDriver.copyStmt, hcopy, owes] using howes
    | faulted junk =>
      have hfault := (hC (by simp [hcopy])).1
      cases d <;>
        simpa [hpc, FifoDriver.copyStmt, hcopy, FifoDriver.leaveBy, owes, hfault] using howes
  | noSignal hpc =>
    cases (D.code _).rearms <;> simpa [hpc, owes] using howes
  | release hpc =>
    have hin : s.inside t = true := by
      cases hin : s.inside t <;> simp_all [owes]
    simp [owes, hin]
  | @exit d x rest ret hpc =>
    cases x with
    | mutexUnlock =>
      obtain ⟨hin, hrest⟩ : s.inside t = true ∧ rest.count .mutexUnlock = 0 := by
        cases hin : s.inside t <;> simp_all [owes]
      simp [State.exitStmt, owes, hin, hrest]
    | removeWaitQueue head => cases d <;> simpa [State.exitStmt, hpc, owes] using howes
    | setRunning => simpa [State.exitStmt, hpc, owes] using howes
  | _ => simp_all [owes]

/-- A step of a task that takes a balanced label keeps its entries. -/
theorem entries_of_stmt (h : Stmt D s t s') (hC : Tidy D s (.step t)) {d : Direction}
    (hent : entries d (s.pc t) = (s.waiters d).count t) :
    entries d (s'.pc t) = (s'.waiters d).count t := by
  cases h with
  | again hpc hblocked hnb =>
    simp only [Tidy, hpc] at hC
    simpa [hpc, FifoDriver.leaveBy, entries, (hC hblocked hnb).2] using hent
  | signal hpc hsig =>
    simp only [Tidy, hpc] at hC
    simpa [hpc, FifoDriver.leaveBy, entries, (hC hsig).2] using hent
  | wake hpc =>
    simp only [Tidy, hpc] at hC
    simpa [hpc, FifoDriver.leaveBy, entries, hC.2] using hent
  | @copy e c hpc =>
    simp only [Tidy, hpc] at hC
    cases hcopy : c.copy with
    | copied => cases e <;> simpa [hpc, FifoDriver.copyStmt, hcopy, entries] using hent
    | faulted junk =>
      have hfault := (hC (by simp [hcopy])).2
      cases e <;>
        simpa [hpc, FifoDriver.copyStmt, hcopy, FifoDriver.leaveBy, entries, hfault] using hent
  | noSignal hpc =>
    cases (D.code _).rearms <;> simpa [hpc, entries] using hent
  | @enqueue e c hpc =>
    by_cases hd : e = d
    · subst hd
      have hout : (s.waiters e).count t = 0 := by simpa [hpc, entries] using hent.symm
      simp [entries, hout]
    · simpa [hpc, entries, hd, Ne.symm hd] using hent
  | @exit e x rest ret hpc =>
    cases x with
    | removeWaitQueue head =>
      cases e with
      | none => simpa [State.exitStmt, hpc, entries] using hent
      | some e =>
        by_cases hd : e = d
        · subst hd
          have hcount : rest.countP ExitStmt.isRemove + 1 = (s.waiters e).count t := by
            simpa [hpc, entries, List.countP_cons, ExitStmt.isRemove] using hent
          simp [State.exitStmt, entries, List.count_erase_self, ← hcount]
        · simpa [State.exitStmt, hpc, entries, hd, Ne.symm hd] using hent
    | _ => cases e <;> simpa [State.exitStmt, hpc, entries, ExitStmt.isRemove] using hent
  | @leave e ret hpc => cases e <;> simpa [hpc, entries] using hent
  | _ => simp_all [entries]

/-- **The step lemma.** -/
theorem Disciplined.next (hs : Disciplined s) (hC : Tidy D s a) (h : D.next s a = some s') :
    Disciplined s' := by
  have hmove : owes (s'.pc a.task) = (s'.inside a.task).toNat ∧
      (∀ d, entries d (s'.pc a.task) = (s'.waiters d).count a.task) ∧
      s'.strayUnlock = s.strayUnlock := by
    have howes := hs.owes_eq a.task
    have hent := hs.entries_eq a.task
    obtain ⟨t, call, p, rfl, hpc, hp, rfl⟩ | ⟨t, rfl, hstmt⟩ | ⟨t, rfl, rfl⟩ := next_cases h
    · simp only [Action.task, hpc, owes, entries] at howes hent
      obtain ⟨d, c, -, rfl⟩ | rfl | rfl | rfl := entry_cases hp <;>
        simpa [Action.task, owes, entries, ← howes] using hent
    · obtain ⟨howes', hstray⟩ := owes_of_stmt hstmt hC howes
      exact ⟨howes', fun d => entries_of_stmt hstmt hC (hent d), hstray⟩
    · exact ⟨howes, hent, rfl⟩
  obtain ⟨howes, hent, hstray⟩ := hmove
  refine ⟨fun u => ?_, fun u d => ?_, hstray.trans hs.strayUnlock_eq⟩
  · by_cases hu : u = a.task
    · exact hu ▸ howes
    · obtain ⟨hpc, hin, -⟩ := frame_of_next h hu
      rw [hpc, hin, hs.owes_eq]
  · by_cases hu : u = a.task
    · exact hu ▸ hent d
    · obtain ⟨hpc, -, hcount⟩ := frame_of_next h hu
      rw [hpc, hcount, hs.entries_eq]

theorem disciplined_init : Disciplined D.machine.init :=
  ⟨fun _ => rfl, fun _ _ => rfl, rfl⟩

/-- A disciplined system has no intrusions. -/
theorem Disciplined.noIntrusion (hs : Disciplined s) (a : Action) : NoIntrusion s a := by
  intro t d rest ret ha hpc
  have howes := hs.owes_eq t
  cases hin : s.inside t
  · simp [hpc, owes, hin] at howes
  · exact .inl rfl

/-- A task that is not in a call holds no mutex and is on no queue. -/
theorem Disciplined.idle (hs : Disciplined s) (ht : s.pc t = .idle) :
    s.inside t = false ∧ ∀ d, t ∉ s.waiters d := by
  constructor
  · have howes := hs.owes_eq t
    simpa [ht, owes] using howes.symm
  · intro d
    have hent := hs.entries_eq t d
    exact List.count_eq_zero.mp (by simpa [ht, entries] using hent.symm)

/-! ### Progress -/

variable (D) in
/-- How many statements a task inside runs at most until its next `mutex_unlock` is done. -/
def rank : Pc → ℕ
  | .exit _ rest _ => rest.length
  | .release .. => 1
  | .prepare .. | .pollBody | .clearBody => 2
  | .wake d _ => (D.code d).onDone.length + 1
  | .update d _ _ => (D.code d).onDone.length + 2
  | .shift .. => (D.code .read).onDone.length + 3
  | .copy d _ => (D.code d).onDone.length + (D.code d).onFault.length + 4
  | .test d _ =>
    (D.code d).onDone.length + (D.code d).onFault.length + (D.code d).onAgain.length + 5
  | .enqueue d _ =>
    (D.code d).onDone.length + (D.code d).onFault.length + (D.code d).onAgain.length + 6
  | _ => 0

/-- The next statement of a task inside can be run. -/
theorem Disciplined.exists_stmt (hs : Disciplined s) (ht : s.inside t = true) :
    ∃ s', D.stmt s t = some s' := by
  have howes := hs.owes_eq t
  rw [ht] at howes
  cases hpc : s.pc t with
  | exit d rest ret =>
    cases rest with
    | nil => simp [hpc, owes] at howes
    | cons x rest => simp [FifoDriver.stmt, hpc]
  | enqueue d c | test d c | prepare d c | release d c | copy d c | shift n out | update d n data
  | wake d n | pollBody | clearBody => simp [FifoDriver.stmt, hpc]
  | _ => simp [hpc, owes] at howes

/-- A statement of a task inside frees the mutex or brings the task nearer to its
`mutex_unlock`. -/
theorem rank_of_stmt (h : Stmt D s t s') (howes : owes (s.pc t) = 1) :
    s'.mutex = false ∨ s'.inside t = s.inside t ∧ rank D (s'.pc t) < rank D (s.pc t) := by
  cases h with
  | release hpc => exact .inl rfl
  | @exit d x rest ret hpc =>
    cases x with
    | mutexUnlock => exact .inl rfl
    | removeWaitQueue head => cases d <;> exact .inr ⟨rfl, by simp [hpc, rank]⟩
    | setRunning => exact .inr ⟨rfl, by simp [hpc, rank]⟩
  | again hpc | wait hpc | ready hpc =>
    refine .inr ⟨rfl, ?_⟩
    simp only [State.goto_pc, Function.update_self, hpc, rank, FifoDriver.leaveBy]
    omega
  | @copy d c hpc =>
    refine .inr ⟨rfl, ?_⟩
    cases d <;> cases hcopy : c.copy <;>
      simp only [State.goto_pc, Function.update_self, hpc, FifoDriver.copyStmt, hcopy, rank,
        FifoDriver.leaveBy] <;>
      omega
  | enqueue hpc | prepare hpc | shift hpc | update hpc | wake hpc | pollBody hpc
  | clearBody hpc => exact .inr ⟨rfl, by simp [hpc, rank, FifoDriver.leaveBy]⟩
  | lock hpc | sleep hpc | noSleep hpc | awake hpc | signal hpc | noSignal hpc | rearm hpc
  | relock hpc | pollLock hpc | clearLock hpc | leave hpc => simp [hpc, owes] at howes

/-- **A task inside can free the mutex.** If the steps of a task inside always meet the condition
`C`, and the steps that meet `C` keep an invariant that includes discipline, then a task inside
can go on by itself until the mutex is free. -/
theorem exists_release {C : State → Action → Prop} {I : State → Prop}
    (hI : ∀ s, I s → Disciplined s) (hC : ∀ s t, I s → s.inside t = true → C s (.step t))
    (hstep : ∀ s a s', I s → C s a → D.next s a = some s' → I s') (hs : I s)
    (ht : s.inside t = true) :
    ∃ n s', D.machine.runFrom s (List.replicate n (.step t)) = some s' ∧ I s' ∧
      s'.mutex = false := by
  induction hr : rank D (s.pc t) using Nat.strong_induction_on generalizing s with
  | h r ih =>
    obtain ⟨u, hu⟩ := (hI s hs).exists_stmt (D := D) ht
    have howes : owes (s.pc t) = 1 := by rw [(hI s hs).owes_eq, ht]; rfl
    have hIu : I u := hstep s (.step t) u hs (hC s t hs ht) hu
    have hcons : ∀ {n s'}, D.machine.runFrom u (List.replicate n (.step t)) = some s' →
        D.machine.runFrom s (List.replicate (n + 1) (.step t)) = some s' := fun hrun =>
      D.machine.runFrom_cons_eq_some.mpr ⟨u, hu, hrun⟩
    obtain hfree | ⟨hin, hlt⟩ := rank_of_stmt (stmt_of_step hu) howes
    · exact ⟨1, u, hcons rfl, hIu, hfree⟩
    · obtain ⟨n, s', hrun, hs', hfree⟩ := ih _ (hr ▸ hlt) hIu (hin.trans ht) rfl
      exact ⟨n + 1, s', hcons hrun, hs', hfree⟩

/-- The next statement of the task is a `mutex_lock`. -/
def locking : Pc → Prop
  | .lock .. | .relock .. | .pollLock | .clearLock => True
  | _ => False

theorem exists_stmt_of_locking (hpc : locking (s.pc t)) (hfree : s.mutex = false) :
    ∃ s', D.next s (.step t) = some s' := by
  cases h : s.pc t with
  | lock d c | relock d c | pollLock | clearLock =>
    simp [FifoDriver.next, FifoDriver.stmt, h, hfree]
  | _ => simp [h, locking] at hpc

theorem pc_of_replicate {u : ℕ} {n : ℕ} (hu : u ≠ t)
    (hrun : D.machine.runFrom s (List.replicate n (.step t)) = some s') : s'.pc u = s.pc u := by
  induction n generalizing s with
  | zero =>
    obtain rfl : s = s' := by simpa using hrun
    rfl
  | succ n ih =>
    obtain ⟨v, hv, hrest⟩ := D.machine.runFrom_cons_eq_some.mp hrun
    exact (ih hrest).trans (pc_of_ne (D := D) (a := .step t) hv hu)

/-- **Every `mutex_lock` can go through.** Under the assumptions of `exists_release`, a task about
to lock the mutex can do so after some steps of another task. -/
theorem exists_acquire {C : State → Action → Prop} {I : State → Prop}
    (hI : ∀ s, I s → Disciplined s ∧ Exclusive s)
    (hC : ∀ s t, I s → s.inside t = true → C s (.step t))
    (hstep : ∀ s a s', I s → C s a → D.next s a = some s' → I s') (hs : I s)
    (ht : locking (s.pc t)) :
    ∃ u n s' s'', u ≠ t ∧ D.machine.runFrom s (List.replicate n (.step u)) = some s' ∧
      D.next s' (.step t) = some s'' := by
  obtain ⟨hdisc, hexcl⟩ := hI s hs
  cases hmutex : s.mutex
  · obtain ⟨s'', hs''⟩ := exists_stmt_of_locking (D := D) ht hmutex
    exact ⟨t + 1, 0, s, s'', by omega, rfl, hs''⟩
  · obtain ⟨u, hu⟩ := hexcl.mutex_iff.mp hmutex
    have hut : u ≠ t := by
      rintro rfl
      have howes := hdisc.owes_eq u
      cases h : s.pc u <;> simp_all [locking, owes]
    obtain ⟨n, s', hrun, -, hfree⟩ := exists_release (fun s h => (hI s h).1) hC hstep hs hu
    rw [← pc_of_replicate hut.symm hrun] at ht
    obtain ⟨s'', hs''⟩ := exists_stmt_of_locking (D := D) ht hfree
    exact ⟨u, n, s', s'', hut, hrun, hs''⟩

end Fifo

end LinuxDriver
