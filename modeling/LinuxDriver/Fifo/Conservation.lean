import LinuxDriver.Fifo.Exclusion

/-!
# Mutual exclusion keeps the bytes

While at most one task is inside, the statements of a FIFO driver that touch the bytes act as the
operations of a bounded queue. A read takes its bytes between two statements: after the rest was
moved to the front and before `len` is reduced, the bytes that count as queued are those already
copied to the user and the rest behind them (`Fifo.heldAt`).

## Main definitions

* `Fifo.Fits`: what a statement relies on about the device.
* `Fifo.heldAt`: the bytes that count as queued.
* `Fifo.Sound`: the invariant of the runs without intrusions.
* `Fifo.simulation`: the refinement of the bounded queue.

## Main results

* `Fifo.mirrors_of_stmt`: one statement with the mutex held.
* `Fifo.Sound.next`: the step lemma.
* `Fifo.conservation_of_obeys`: no byte is lost or given away twice without intrusions.
-/

namespace LinuxDriver

namespace Fifo

variable (D : FifoDriver) {s s' : State} {a : Action} {t : ℕ}

/-! ### One statement -/

/-- What the next statement of a task relies on about the device. -/
def Fits (dev : FifoDev) : Pc → Prop
  | .prepare d _ | .release d _ => D.blocked d dev.len
  | .shift n out => n ≤ dev.len ∧ out = dev.memory.load 0 n
  | .update .read n out => n ≤ dev.len ∧ out.length = n
  | .update .write n data => n ≤ D.layout.size - dev.len ∧ data = dev.memory.load dev.len n
  | .wake _ n => n ≤ D.layout.size
  | _ => True

/-- The bytes that count as queued when a task with the mutex is at a statement. -/
def heldAt (dev : FifoDev) : Pc → List UInt8
  | .update .read n out => out ++ dev.memory.load 0 (dev.len - n)
  | _ => dev.content

variable {D}

theorem fits_of_not_critical {dev : FifoDev} {p : Pc} (hp : ¬critical p) : Fits D dev p := by
  cases p <;> simp_all [critical, Fits]

theorem heldAt_of_not_critical {dev : FifoDev} {p : Pc} (hp : ¬critical p) :
    heldAt dev p = dev.content := by
  cases p <;> simp_all [critical, heldAt]

/-- The device is within its array, and the statement of task `t` can rely on it. -/
theorem fits_of_stmt (h : Stmt D s t s') (hlen : s.dev.len ≤ D.layout.size)
    (hfits : Fits D s.dev (s.pc t)) :
    s'.dev.len ≤ D.layout.size ∧ Fits D s'.dev (s'.pc t) := by
  cases h with
  | wait hpc hblocked => exact ⟨hlen, by simpa [Fits] using hblocked⟩
  | prepare hpc =>
    rw [hpc] at hfits
    exact ⟨hlen, by simpa [Fits] using hfits⟩
  | @copy d c hpc =>
    refine ⟨by simpa using hlen, ?_⟩
    cases hcopy : c.copy with
    | faulted junk => cases d <;> simp [FifoDriver.copyStmt, hcopy, FifoDriver.leaveBy, Fits]
    | copied =>
      cases d with
      | read =>
        simpa [FifoDriver.copyStmt, hcopy, Fits] using
          D.layout.readCount_le s.dev.len c.count
      | write =>
        have hn := D.layout.writeCount_le hlen c.count
        have hself := Buffer.load_store_self s.dev.memory s.dev.len
          (c.buf.load 0 (D.layout.writeCount s.dev.len c.count))
        rw [Buffer.length_load] at hself
        simpa [FifoDriver.copyStmt, FifoDev.fill, hcopy, Fits, hn] using hself.symm
  | shift hpc =>
    rw [hpc] at hfits
    obtain ⟨hn, rfl⟩ := hfits
    exact ⟨hlen, by simpa [Fits] using hn⟩
  | @update d n data hpc =>
    rw [hpc] at hfits
    cases d with
    | read =>
      obtain ⟨hn, -⟩ : n ≤ s.dev.len ∧ _ := hfits
      have hread := FifoDev.len_consume D.layout hlen hn
      refine ⟨?_, by simpa [Fits] using hn.trans hlen⟩
      simp only [State.goto_dev, FifoDriver.updateStmt, hread]
      omega
    | write =>
      obtain ⟨hn, -⟩ : n ≤ D.layout.size - s.dev.len ∧ _ := hfits
      have hwrite : (s.dev.produce D.layout n).len = s.dev.len + n :=
        FifoDev.len_produce D.layout (by omega)
      refine ⟨?_, by simpa [Fits] using hn.trans (Nat.sub_le ..)⟩
      simp only [State.goto_dev, FifoDriver.updateStmt, hwrite]
      omega
  | clearBody hpc => exact ⟨by simp , by simp [Fits]⟩
  | lock hpc | enqueue hpc | again hpc | ready hpc | release hpc | sleep hpc | noSleep hpc
  | awake hpc | signal hpc | rearm hpc | relock hpc | wake hpc | pollLock hpc | pollBody hpc
  | clearLock hpc | exit hpc | leave hpc =>
    exact ⟨by simpa using hlen, by simp [FifoDriver.leaveBy, Fits]⟩
  | noSignal hpc =>
    refine ⟨hlen, ?_⟩
    cases (D.code _).rearms <;> simp [Fits]

/-- What a statement of task `t` does to the bytes that count as queued for it. -/
inductive Effect (D : FifoDriver) (s : State) (t : ℕ) (s' : State) : Prop
  | keep (hheld : heldAt s'.dev (s'.pc t) = heldAt s.dev (s.pc t))
      (hhist : s'.history = s.history)
  | pop (n : ℕ) (hheld : heldAt s'.dev (s'.pc t) = (heldAt s.dev (s.pc t)).drop n)
      (hhist : s'.history = .popped ((heldAt s.dev (s.pc t)).take n) :: s.history)
  | push (data : List UInt8)
      (hfit : data.length ≤ D.layout.size - (heldAt s.dev (s.pc t)).length)
      (hheld : heldAt s'.dev (s'.pc t) = heldAt s.dev (s.pc t) ++ data)
      (hhist : s'.history = .pushed data :: s.history)
  | clear (hheld : heldAt s'.dev (s'.pc t) = []) (hhist : s'.history = .cleared :: s.history)

theorem effect_of_stmt (h : Stmt D s t s') (hlen : s.dev.len ≤ D.layout.size)
    (hfits : Fits D s.dev (s.pc t)) : Effect D s t s' := by
  cases h with
  | @copy d c hpc =>
    refine .keep ?_ rfl
    cases d <;> cases hcopy : c.copy <;>
      simp [FifoDriver.copyStmt, FifoDriver.leaveBy, hcopy, hpc, heldAt,
        FifoDev.content_fill, FifoDev.content_scribble]
  | @shift n out hpc =>
    refine .keep ?_ rfl
    rw [hpc] at hfits
    obtain ⟨hn, rfl⟩ := hfits
    simp [hpc, heldAt, FifoDev.load_shiftDown D.layout hlen hn,
      ← FifoDev.take_content hn]
  | @update d n data hpc =>
    rw [hpc] at hfits
    cases d with
    | read =>
      obtain ⟨hn, hdata⟩ : n ≤ s.dev.len ∧ data.length = n := hfits
      have hread := FifoDev.len_consume D.layout hlen hn
      refine .pop n ?_ ?_
      · rw [← hdata] at hread
        simp [hpc, heldAt, FifoDriver.updateStmt, FifoDev.content, hread, ← hdata]
        rfl
      · simp [hpc, heldAt, FifoDriver.transfer, ← hdata]
    | write =>
      obtain ⟨hn, rfl⟩ : n ≤ D.layout.size - s.dev.len ∧ _ := hfits
      have hwrite : (s.dev.produce D.layout n).len = s.dev.len + n :=
        FifoDev.len_produce D.layout (by omega)
      refine .push _ (by simpa [hpc, heldAt] using hn) ?_ rfl
      simp [hpc, heldAt, FifoDriver.updateStmt, FifoDev.content, hwrite,
        Buffer.load_add]
      rfl
  | clearBody hpc => exact .clear (by simp [heldAt]) rfl
  | lock hpc | enqueue hpc | again hpc | wait hpc | ready hpc | prepare hpc | release hpc
  | sleep hpc | noSleep hpc | awake hpc | signal hpc | rearm hpc | relock hpc | wake hpc
  | pollLock hpc | pollBody hpc | clearLock hpc | exit hpc | leave hpc =>
    exact .keep (by simp [hpc, FifoDriver.leaveBy, heldAt]) (by simp)
  | noSignal hpc =>
    refine .keep ?_ rfl
    cases (D.code _).rearms <;> simp [hpc, heldAt]

variable (D) in
/-- A ledger has the history of the system and the bytes that count as queued for task `t`. -/
structure Mirrors (s : State) (t : ℕ) (q : Ledger UInt8 D.layout.size) : Prop where
  content : q.queue.content = heldAt s.dev (s.pc t)
  history : q.history = s.history

theorem mirrors_of_stmt (h : Stmt D s t s') (hlen : s.dev.len ≤ D.layout.size)
    (hfits : Fits D s.dev (s.pc t)) {q : Ledger UInt8 D.layout.size} (hq : Mirrors D s t q) :
    ∃ ops q', (queueSystem UInt8 D.layout.size).runFrom q ops = some q' ∧ Mirrors D s' t q' := by
  obtain ⟨hcontent, hhistory⟩ := hq
  cases effect_of_stmt h hlen hfits with
  | keep hheld hhist =>
    exact ⟨[], q, rfl, hcontent.trans hheld.symm, hhistory.trans hhist.symm⟩
  | pop n hheld hhist =>
    refine ⟨[.pop n], _, rfl, ?_, ?_⟩
    · simp [Ledger.apply, BoundedQueue.pop, hcontent, hheld]
    · simp [Ledger.apply, hcontent, hhistory, hhist]
  | push data hfit hheld hhist =>
    have haccepts : q.queue.accepts data = data := by
      rw [BoundedQueue.accepts, hcontent, List.take_of_length_le hfit]
    refine ⟨[.push data], _, rfl, ?_, ?_⟩
    · simp [Ledger.apply, BoundedQueue.push, haccepts, hcontent, hheld]
    · simp [Ledger.apply, haccepts, hhistory, hhist]
  | clear hheld hhist =>
    refine ⟨[.clear], _, rfl, ?_, ?_⟩
    · simp [Ledger.apply, BoundedQueue.empty, hheld]
    · simp [Ledger.apply, hhistory, hhist]

/-- The statements that are not critical leave the device and the history alone. -/
theorem dev_of_stmt (h : Stmt D s t s') (hcrit : ¬critical (s.pc t)) :
    s'.dev = s.dev ∧ s'.history = s.history := by
  cases h with
  | copy hpc | shift hpc | update hpc | clearBody hpc => simp [hpc, critical] at hcrit
  | _ => exact ⟨by simp, by simp⟩

/-- A statement that is not critical, the entry into a call and a signal leave the device, the
history and the bytes that count as queued for each task as they were, and each task can go on
relying on the device. -/
theorem quiet_of_next (h : D.next s a = some s') (hlen : s.dev.len ≤ D.layout.size)
    (hquiet : ∀ t, a = .step t → ¬critical (s.pc t)) :
    s'.dev = s.dev ∧ s'.history = s.history ∧
      ∀ u, (Fits D s.dev (s.pc u) → Fits D s'.dev (s'.pc u)) ∧
        heldAt s'.dev (s'.pc u) = heldAt s.dev (s.pc u) := by
  have hrest : s'.dev = s.dev → ∀ u, u ≠ a.task →
      (Fits D s.dev (s.pc u) → Fits D s'.dev (s'.pc u)) ∧
        heldAt s'.dev (s'.pc u) = heldAt s.dev (s.pc u) := by
    intro hdev u hu
    rw [hdev, pc_of_ne h hu]
    exact ⟨id, rfl⟩
  obtain ⟨t, call, p, rfl, hpc, hp, rfl⟩ | ⟨t, rfl, hstmt⟩ | ⟨t, rfl, rfl⟩ := next_cases h
  · refine ⟨rfl, rfl, fun u => ?_⟩
    by_cases hu : u = t
    · subst hu
      obtain ⟨d, c, -, rfl⟩ | rfl | rfl | rfl := entry_cases hp <;> simp [hpc, Fits, heldAt]
    · exact hrest rfl u hu
  · obtain ⟨hdev, hhist⟩ := dev_of_stmt hstmt (hquiet t rfl)
    refine ⟨hdev, hhist, fun u => ?_⟩
    by_cases hu : u = t
    · subst hu
      have hfits : Fits D s.dev (s.pc u) := fits_of_not_critical (hquiet u rfl)
      refine ⟨fun _ => (fits_of_stmt hstmt hlen hfits).2, ?_⟩
      cases effect_of_stmt hstmt hlen hfits with
      | keep hheld => exact hheld
      | pop n hheld hhist' | push data hfit hheld hhist' | clear hheld hhist' =>
        exact absurd (hhist'.symm.trans hhist) (List.cons_ne_self _ _)
    · exact hrest hdev u hu
  · exact ⟨rfl, rfl, fun u => ⟨id, rfl⟩⟩

/-! ### All tasks -/

variable (D) in
/-- The invariant of the runs without intrusions. -/
structure Sound (s : State) : Prop where
  exclusive : Exclusive s
  criticalInside : CriticalInside s
  len_le : s.dev.len ≤ D.layout.size
  fits : ∀ t, Fits D s.dev (s.pc t)

theorem sound_init : Sound D D.machine.init where
  exclusive := exclusive_init
  criticalInside := criticalInside_init
  len_le := Nat.zero_le _
  fits _ := trivial

/-- At most one task is at a critical statement. -/
theorem Sound.eq_of_critical (hs : Sound D s) {t u : ℕ} (ht : critical (s.pc t))
    (hu : critical (s.pc u)) : t = u :=
  hs.exclusive.unique t u (hs.criticalInside t ht) (hs.criticalInside u hu)

/-- A step is quiet, or is a critical statement of the only task inside. -/
theorem Sound.quiet_or_critical (hs : Sound D s) (h : D.next s a = some s') :
    (∀ t, a = .step t → ¬critical (s.pc t)) ∨
      ∃ t, a = .step t ∧ Stmt D s t s' ∧ s.inside t = true ∧ ∀ u, s.inside u = true → u = t := by
  by_cases hquiet : ∀ t, a = .step t → ¬critical (s.pc t)
  · exact .inl hquiet
  · push Not at hquiet
    obtain ⟨t, rfl, hcrit⟩ := hquiet
    have ht : s.inside t = true := hs.criticalInside t hcrit
    exact .inr ⟨t, rfl, stmt_of_step h, ht, fun u hu => hs.exclusive.unique u t hu ht⟩

/-- **The step lemma.** -/
theorem Sound.next (hs : Sound D s) (hC : NoIntrusion s a) (h : D.next s a = some s') :
    Sound D s' := by
  have hexcl : Exclusive s' := hs.exclusive.next hs.criticalInside hC h
  have hcrit : CriticalInside s' := hs.criticalInside.next h
  obtain hquiet | ⟨t, rfl, hstmt, ht, hunique⟩ := hs.quiet_or_critical h
  · obtain ⟨hdev, -, hu⟩ := quiet_of_next h hs.len_le hquiet
    exact ⟨hexcl, hcrit, hdev ▸ hs.len_le, fun u => (hu u).1 (hs.fits u)⟩
  · obtain ⟨hlen, hfits⟩ := fits_of_stmt hstmt hs.len_le (hs.fits t)
    refine ⟨hexcl, hcrit, hlen, fun u => ?_⟩
    by_cases hut : u = t
    · exact hut ▸ hfits
    · rw [pc_of_ne h hut]
      exact fits_of_not_critical fun hu => hut (hunique u (hs.criticalInside u hu))

/-- No task but `w` is inside. -/
def Owner (s : State) (w : ℕ) : Prop := ∀ u, s.inside u = true → u = w

/-- Some task is the owner before and after a step. -/
theorem Exclusive.exists_owner (hs : Exclusive s) (h : D.next s a = some s') :
    ∃ w, Owner s w ∧ Owner s' w := by
  have hbefore : ∃ w, Owner s w := by
    by_cases hin : ∃ w, s.inside w = true
    · obtain ⟨w, hw⟩ := hin
      exact ⟨w, fun u hu => hs.unique u w hu hw⟩
    · exact ⟨0, fun u hu => absurd ⟨u, hu⟩ hin⟩
  obtain ⟨w, hw⟩ := hbefore
  cases lockEffect_of_next h with
  | acquire hfree hmutex hinside =>
    have hnone : ∀ u, s.inside u ≠ true := fun u hu => by
      simpa [hfree] using hs.mutex_iff.mpr ⟨u, hu⟩
    refine ⟨a.task, fun u hu => absurd hu (hnone u), fun u hu => ?_⟩
    by_contra hut
    rw [hinside, Function.update_of_ne hut] at hu
    exact hnone u hu
  | release ha hpc hpc' hmutex hinside =>
    refine ⟨w, hw, fun u hu => ?_⟩
    rw [hinside, Function.update_apply] at hu
    split_ifs at hu
    exact hw u hu
  | keep hpc' hmutex hinside => exact ⟨w, hw, fun u hu => hw u (hinside ▸ hu)⟩

/-- All owners see the same bytes as queued. -/
theorem Sound.heldAt_owner (hs : Sound D s) {v w : ℕ} (hv : Owner s v) (hw : Owner s w) :
    heldAt s.dev (s.pc v) = heldAt s.dev (s.pc w) := by
  by_cases hvw : v = w
  · rw [hvw]
  · have hv' : ¬critical (s.pc v) := fun hcrit => hvw (hw v (hs.criticalInside v hcrit))
    have hw' : ¬critical (s.pc w) := fun hcrit => hvw (hv w (hs.criticalInside w hcrit)).symm
    rw [heldAt_of_not_critical hv', heldAt_of_not_critical hw']

variable (D) in
/-- The refinement relation: a ledger has the history of the system and the bytes that count as
queued for its owner. -/
structure Refines (s : State) (q : Ledger UInt8 D.layout.size) : Prop where
  sound : Sound D s
  mirrors : ∀ w, Owner s w → Mirrors D s w q

theorem Refines.next {q : Ledger UInt8 D.layout.size} (hs : Refines D s q)
    (hC : NoIntrusion s a) (h : D.next s a = some s') :
    ∃ ops q', (queueSystem UInt8 D.layout.size).runFrom q ops = some q' ∧ Refines D s' q' := by
  have hsound : Sound D s' := hs.sound.next hC h
  obtain ⟨w, hw, hw'⟩ := hs.sound.exclusive.exists_owner h
  have hspread : ∀ q' : Ledger UInt8 D.layout.size, Mirrors D s' w q' → Refines D s' q' :=
    fun q' hq' => ⟨hsound, fun v hv =>
      ⟨hq'.content.trans (hsound.heldAt_owner hw' hv), hq'.history⟩⟩
  have hq := hs.mirrors w hw
  obtain hquiet | ⟨t, rfl, hstmt, ht, -⟩ := hs.sound.quiet_or_critical h
  · obtain ⟨-, hhist, hheld⟩ := quiet_of_next h hs.sound.len_le hquiet
    exact ⟨[], q, rfl, hspread q
      ⟨hq.content.trans (hheld w).2.symm, hq.history.trans hhist.symm⟩⟩
  · obtain rfl : t = w := hw t ht
    obtain ⟨ops, q', hrun, hq'⟩ := mirrors_of_stmt hstmt hs.sound.len_le (hs.sound.fits t) hq
    exact ⟨ops, q', hrun, hspread q' hq'⟩

variable (D) in
/-- The refinement of the bounded queue by the runs without intrusions. -/
def simulation : Simulation D.machine (queueSystem UInt8 D.layout.size) NoIntrusion where
  rel := Refines D
  init := ⟨sound_init, fun _ _ => ⟨rfl, rfl⟩⟩
  step _ _ _ _ hs hC h := hs.next hC h

/-- At most one task is inside, and only a task inside is at a statement that touches the device;
while no task is inside, the bytes given away since the device was last cleared followed by the
bytes held are the bytes accepted since then. -/
structure Conserves (s : State) : Prop where
  unique : ∀ t u, s.inside t = true → s.inside u = true → t = u
  critical : ∀ t, critical (s.pc t) → s.inside t = true
  stream : (∀ t, s.inside t = false) →
    poppedSince s.history ++ s.dev.content = pushedSince s.history

theorem Refines.conserves {q : Ledger UInt8 D.layout.size} (hs : Refines D s q)
    (hq : q.Balanced) : Conserves s where
  unique := hs.sound.exclusive.unique
  critical := hs.sound.criticalInside
  stream hnone := by
    have hcrit : ¬critical (s.pc 0) := fun h => by
      simpa [hnone] using hs.sound.criticalInside 0 h
    obtain ⟨hcontent, hhist⟩ := hs.mirrors 0 fun u hu => by simp [hnone] at hu
    rw [heldAt_of_not_critical hcrit] at hcontent
    rw [← hcontent, ← hhist]
    exact hq

/-- **No byte is lost or given away twice.** In every run without intrusions, every state passed
has at most one task inside and keeps the law of the queue. -/
theorem conservation_of_obeys {as : List Action}
    (hC : D.machine.Obeys NoIntrusion D.machine.init as) :
    D.machine.Always Conserves D.machine.init as := by
  refine ((simulation D).always_exists_reachable hC).mono fun s ⟨q, hreach, hrel⟩ => ?_
  exact hrel.conserves (queueSystem_law hreach)

end Fifo

end LinuxDriver
