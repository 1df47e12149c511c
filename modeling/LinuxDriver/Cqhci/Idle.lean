import LinuxDriver.Cqhci.Queue

/-!
# Waiting for the queue, and the engine under it

A task in `cqhci_wait_for_idle` looks at the queue under the lock and leaves `waiting_for_idle`
behind when it goes to sleep. It must be woken by whoever empties or halts the queue. Any number of
tasks may wait, and share the one flag.

`cqhci_request` turns the engine on before it takes the lock, and the doorbell is rung under the
lock. In between recovery may run from its start to its end, which leaves the engine off and the
halt gone: the request is then accepted by an engine that is off.

## Main definitions

* `Attended`: who sleeps has left the flag, and sleeps for a reason.
* `EngineOn`, `KeepsEngine`: the engine is on under a request, and the condition on a step.

## Main results

* `waiters_attended`: no wake-up is lost, and who stops waiting does so for a reason.
* `always_engineOn_iff`: which runs have the engine on under every request.
-/

namespace LinuxDriver.Cqhci

variable {s s' : State} {a : Action} {as : List Action}

/-! ### Waiting for idle -/

/-- A sleeping task has left `waiting_for_idle`, and the queue holds a request and is not halted. -/
def Attended (h : Host) : Prop :=
  ∀ w, h.waiter w = .asleep →
    h.waitingForIdle = true ∧ h.qcnt ≠ 0 ∧ h.recoveryHalt = false

theorem attended_of_awake {h : Host} (hawake : ∀ w, h.waiter w ≠ .asleep) : Attended h :=
  fun w hw => absurd hw (hawake w)

theorem Attended.congr {h h' : Host} (hs : Attended h) (hwaiter : h'.waiter = h.waiter)
    (hwaiting : h'.waitingForIdle = h.waitingForIdle) (hqcnt : h.qcnt ≠ 0 → h'.qcnt ≠ 0)
    (hhalt : h'.recoveryHalt = h.recoveryHalt) : Attended h' := by
  intro w hw
  obtain ⟨h₁, h₂, h₃⟩ := hs w (hwaiter ▸ hw)
  exact ⟨hwaiting.trans h₁, hqcnt h₂, hhalt.trans h₃⟩

theorem Attended.switched {h h' : Host} (hs : Attended h) (hswitch : h.SwitchOnly h') :
    Attended h' := by
  obtain ⟨enabled, activated, cqeOn, rfl⟩ := hswitch
  exact hs

/-- The last completion wakes who sleeps. -/
theorem Attended.completeIrq {h : Host} (hs : Attended h) (tcn : BitVec 32) :
    Attended (h.completeIrq tcn) := by
  -- while the tasks are completed one by one, the sleepers and their flag stay
  have hfold : ∀ (tags : List Tag) (h : Host),
      (∀ w, h.waiter w = .asleep → h.waitingForIdle = true ∧ h.recoveryHalt = false) →
      ∀ w, (tags.foldl Host.finishMrq h).waiter w = .asleep →
        (tags.foldl Host.finishMrq h).waitingForIdle = true ∧
          (tags.foldl Host.finishMrq h).recoveryHalt = false := by
    intro tags
    induction tags with
    | nil => exact fun h hh => hh
    | cons tag tags ih =>
      intro h hh
      have hf := Host.frame_finishMrq h tag
      refine ih (h.finishMrq tag) fun w hw => ?_
      rw [hf.waitingForIdle, hf.recoveryHalt]
      exact hh w (hf.waiter ▸ hw)
  unfold Host.completeIrq
  dsimp only
  set tags := (List.finRange 32).filter fun tag : Tag => tcn.getLsbD tag.val
  set h1 := tags.foldl Host.finishMrq h with hh1
  by_cases hwake : h1.waitingForIdle = true ∧ h1.qcnt = 0
  · rw [if_pos hwake]
    exact attended_of_awake (Host.wakeUp_waiter_ne_asleep _)
  · rw [if_neg hwake]
    intro w hw
    obtain ⟨hwaiting, hhalt⟩ := hfold tags h (fun w hw => ⟨(hs w hw).1, (hs w hw).2.2⟩) w hw
    exact ⟨hwaiting, fun hzero => hwake ⟨hwaiting, hzero⟩, hhalt⟩

/-- A task that looks at the queue goes to sleep only on a queue that is busy, and raises the flag
for all that sleep. -/
theorem Attended.wait {h : Host} (hs : Attended h) (w : ℕ) : Attended (h.wait w) := by
  by_cases hidle : h.qcnt = 0 ∨ h.recoveryHalt = true
  · have hawake : ∀ v, h.waiter v ≠ .asleep := by
      intro v hv
      obtain ⟨-, hqcnt, hhalt⟩ := hs v hv
      rcases hidle with hzero | htrue
      · exact hqcnt hzero
      · exact absurd (hhalt.symm.trans htrue) (by decide)
    have hdone : h.isIdle.2.1 = true := by simpa [Host.isIdle] using hidle
    unfold Host.wait
    rw [if_pos hdone]
    exact attended_of_awake fun v => setWaiter_waiter_ne_asleep (by decide) (hawake v)
  · obtain ⟨hqcnt, hhalt⟩ := not_or.mp hidle
    have hwaiting : (h.wait w).waitingForIdle = true := by
      simpa [Host.wait, Host.setWaiter, Host.isIdle] using hidle
    have hrun : h.recoveryHalt = false := by simpa using hhalt
    exact fun v _ => ⟨hwaiting, hqcnt, hrun⟩

theorem Attended.next (hst : Staged s) (hac : Accounted s) (hs : Attended s.host)
    (hnext : queueSystem.next s a = some s') : Attended s'.host := by
  -- on a halted queue nobody sleeps
  have hhalted : s.host.recoveryHalt = true → ∀ w, s.host.waiter w ≠ .asleep := hst.quiet.awake
  cases a with
  | request mrq mapped =>
    obtain ⟨-, rfl⟩ := Option.ite_some_none_eq_some.mp hnext
    exact hs.switched (Host.switchOnly_prepare _ mrq mapped)
  | submit =>
    obtain ⟨mrq, -, rfl⟩ := Option.map_eq_some_iff.mp hnext
    change Attended (s.host.submit mrq).1
    by_cases hhalt : s.host.recoveryHalt = true
    · rwa [Host.submit, if_pos hhalt]
    · rw [Host.submit, if_neg hhalt]
      refine hs.congr rfl rfl (fun _ => ?_) rfl
      change s.host.qcnt + 1 ≠ 0
      rw [hac.counted]
      omega
  | errorIrq cmdError dataError terri =>
    obtain rfl := Option.some.inj hnext
    rcases Host.errorIrq_eq_or_alerted hst.quiet cmdError dataError terri with heq | halert
    · change Attended (s.host.errorIrq cmdError dataError terri)
      rwa [heq]
    · exact attended_of_awake (halert.awake halert.halted)
  | completeIrq tcn =>
    obtain rfl := Option.some.inj hnext
    exact hs.completeIrq tcn
  | wakeIrq =>
    obtain rfl := Option.some.inj hnext
    exact attended_of_awake (Host.wakeUp_waiter_ne_asleep _)
  | waitForIdle w =>
    obtain ⟨-, rfl⟩ := Option.ite_some_none_eq_some.mp hnext
    intro v hv
    exact hs v (by_contra fun h => setWaiter_waiter_ne_asleep (by decide) h hv)
  | isIdle w =>
    obtain ⟨-, rfl⟩ := Option.ite_some_none_eq_some.mp hnext
    exact hs.wait w
  | timeout mrq =>
    obtain rfl := Option.some.inj hnext
    rcases Host.timeout_cases hst.quiet mrq with ⟨-, heq⟩ | ⟨-, halert, -⟩
    · change Attended (s.host.timeout mrq).1
      rwa [heq]
    · exact attended_of_awake (halert.awake halert.halted)
  | recoveryStart =>
    obtain ⟨-, rfl⟩ := Option.ite_some_none_eq_some.mp hnext
    exact hs
  | recoverMrq =>
    cases hrecovery : s.recovery with
    | idle => simp [queueSystem, hrecovery] at hnext
    | recovering i =>
      simp only [queueSystem, hrecovery] at hnext
      obtain ⟨hi, hstate⟩ := Option.dite_none_right_eq_some.mp hnext
      obtain rfl := Option.some.inj hstate
      have hf := Host.frame_recoverMrq s.host ⟨i, hi⟩
      refine attended_of_awake fun w => ?_
      rw [hf.waiter]
      exact hhalted (hst.halted i hrecovery) w
  | recoveryFinish =>
    obtain ⟨hrecovery, rfl⟩ := Option.ite_some_none_eq_some.mp hnext
    exact attended_of_awake (hhalted (hst.halted 32 hrecovery))
  | off =>
    obtain rfl := Option.some.inj hnext
    exact hs.switched (Host.switchOnly_off _)
  | suspend =>
    obtain rfl := Option.some.inj hnext
    exact hs.switched (Host.switchOnly_suspend _)
  | enable allocated =>
    obtain rfl := Option.some.inj hnext
    exact hs.switched (Host.switchOnly_enable _ allocated)
  | disable =>
    obtain rfl := Option.some.inj hnext
    exact hs.switched (Host.switchOnly_disable _)

/-- **Waiters.** In a run that never puts a request into an occupied slot, a task sleeps in
`cqhci_wait_for_idle` only while a request is in its slot and the queue is not halted, and the flag
that makes the last completion wake it is up. A task stops waiting with 0 only when all the slots
are free, and with `-EBUSY` only on a halted queue. -/
theorem waiters_attended (hrun : queueSystem.run as = some s)
    (hfree : queueSystem.Obeys FillsFree queueSystem.init as) :
    (∀ w, s.host.waiter w = .asleep →
      s.host.waitingForIdle = true ∧ s.host.queued ≠ 0 ∧ s.host.recoveryHalt = false) ∧
    (s.host.isIdle.2.1 = true →
      s.host.isIdle.2.2 = 0 ∧ s.host.queued = 0 ∧ s.host.recoveryHalt = false ∨
        s.host.isIdle.2.2 = -ebusy ∧ s.host.recoveryHalt = true) := by
  obtain ⟨⟨-, hac⟩, hat⟩ : (Staged s ∧ Accounted s) ∧ Attended s.host :=
    queueSystem.invariant_of_obeys (I := fun s => (Staged s ∧ Accounted s) ∧ Attended s.host)
      (fun _ _ _ ⟨⟨hst, hac⟩, hat⟩ ha hnext =>
        ⟨⟨hst.next hnext, (accounted_next_iff hst hac hnext).mpr ha⟩, hat.next hst hac hnext⟩)
      ⟨⟨staged_init, accounted_init⟩, fun w hw => (by cases hw)⟩ hfree hrun
  have hcard : s.host.qcnt = 0 ↔ s.host.queued = 0 := by
    rw [hac.counted, Int.natCast_eq_zero, Multiset.card_eq_zero]
  constructor
  · intro w hw
    obtain ⟨hwaiting, hqcnt, hhalt⟩ := hat w hw
    exact ⟨hwaiting, fun hzero => hqcnt (hcard.mpr hzero), hhalt⟩
  · intro hidle
    by_cases hhalt : s.host.recoveryHalt = true
    · exact .inr ⟨by simp [Host.isIdle, hhalt], hhalt⟩
    · have hzero : s.host.qcnt = 0 := by simpa [Host.isIdle, hhalt] using hidle
      exact .inl ⟨by simp [Host.isIdle, hhalt], hcard.mp hzero, by simpa using hhalt⟩

theorem waiters_attended_sampleRun :
    (∀ w, (afterRun sampleRun).host.waiter w = .asleep →
      (afterRun sampleRun).host.waitingForIdle = true ∧ (afterRun sampleRun).host.queued ≠ 0 ∧
        (afterRun sampleRun).host.recoveryHalt = false) ∧
    ((afterRun sampleRun).host.isIdle.2.1 = true →
      (afterRun sampleRun).host.isIdle.2.2 = 0 ∧ (afterRun sampleRun).host.queued = 0 ∧
          (afterRun sampleRun).host.recoveryHalt = false ∨
        (afterRun sampleRun).host.isIdle.2.2 = -ebusy ∧
          (afterRun sampleRun).host.recoveryHalt = true) :=
  waiters_attended (run_eq_afterRun (by decide +kernel)) (by decide +kernel)

/-! ### The engine under a request -/

/-- No request is in a slot or on its way there. -/
def State.Clear (s : State) : Prop := s.issuing = none ∧ s.host.queued = 0

instance (s : State) : Decidable s.Clear := inferInstanceAs (Decidable (_ ∧ _))

/-- The engine of a queue that is not halted is on, as long as a request is in a slot or is being
issued. -/
def EngineOn (s : State) : Prop :=
  s.host.recoveryHalt = false → ¬s.Clear → s.host.cqeOn = true

/-- The engine is turned off only when nothing is queued or issued, or the queue is halted, and
recovery does not end while a request is being issued. -/
def KeepsEngine (s : State) : Action → Prop
  | .recoveryFinish => s.issuing = none
  | .off | .suspend | .disable =>
    s.host.enabled = false ∨ s.host.recoveryHalt = true ∨ s.Clear
  | _ => True

instance (s : State) : (a : Action) → Decidable (KeepsEngine s a)
  | .recoveryFinish => inferInstanceAs (Decidable (s.issuing = none))
  | .off | .suspend | .disable => inferInstanceAs (Decidable (_ ∨ _ ∨ s.Clear))
  | .request _ _ | .submit | .errorIrq _ _ _ | .completeIrq _ | .wakeIrq | .waitForIdle _
  | .isIdle _ | .timeout _ | .recoveryStart | .recoverMrq | .enable _ => isTrue trivial

theorem EngineOn.congr (hs : EngineOn s) (hhalt : s'.host.recoveryHalt = s.host.recoveryHalt)
    (hclear : s.Clear → s'.Clear) (hon : s'.host.cqeOn = s.host.cqeOn) : EngineOn s' :=
  fun h hbusy => hon.trans (hs (hhalt ▸ h) fun hc => hbusy (hclear hc))

/-- Turning the engine off keeps it on under the requests exactly if there is none, or the queue is
halted, or nothing happens. -/
theorem engineOn_turnedOff_iff {h' : Host} (hs : EngineOn s) (hswitch : s.host.SwitchOnly h')
    (hoff : s.host.enabled = true → s.host.cqeOn = true → s.host.recoveryHalt = false →
      h'.cqeOn = false) (hstay : s.host.enabled = false → h'.cqeOn = s.host.cqeOn) :
    EngineOn { s with host := h' } ↔
      s.host.enabled = false ∨ s.host.recoveryHalt = true ∨ s.Clear := by
  obtain ⟨enabled, activated, cqeOn, rfl⟩ := hswitch
  constructor
  · intro hon
    by_contra hcon
    obtain ⟨henabled, hhalt, hbusy⟩ : ¬_ ∧ ¬_ ∧ ¬_ := by rwa [← not_or, ← not_or]
    have hrun : s.host.recoveryHalt = false := by simpa using hhalt
    have hup := hoff (by simpa using henabled) (hs hrun hbusy) hrun
    exact absurd ((hon hrun hbusy).symm.trans hup) (by decide)
  · rintro (henabled | hhalt | hclear) hrun hbusy
    · exact (hstay henabled).trans (hs hrun hbusy)
    · exact absurd (hhalt.symm.trans hrun) (by decide)
    · exact absurd hclear hbusy

theorem cqeOn_off {h : Host} (henabled : h.enabled = true) (hon : h.cqeOn = true)
    (hhalt : h.recoveryHalt = false) : h.off.cqeOn = false := by
  simp [Host.off, henabled, hon, hhalt]

/-- To enable the queue turns the engine on, if it does anything. -/
theorem cqeOn_enable {h : Host} (allocated : Bool) (hon : h.cqeOn = true) :
    (h.enable allocated).cqeOn = true := by
  unfold Host.enable
  split_ifs
  · exact hon
  · rfl
  · exact hon

theorem clear_completeIrq (tcn : BitVec 32) (hclear : s.Clear) :
    ({ s with host := s.host.completeIrq tcn } : State).Clear := by
  refine ⟨hclear.1, SlotTable.contents_eq_zero.mpr ?_⟩
  have hfree : ∀ tag, s.host.mrqs tag = none := SlotTable.contents_eq_zero.mp hclear.2
  exact Host.completeIrq_induction (P := fun h => ∀ tag, h.mrqs tag = none) hfree
    (fun h tag hh t => (Host.frame_finishMrq h tag).free t (hh t)) (fun _ => id) tcn

theorem engineOn_completeIrq (hs : EngineOn s) (tcn : BitVec 32) :
    EngineOn { s with host := s.host.completeIrq tcn } := by
  have hframe : (s.host.completeIrq tcn).recoveryHalt = s.host.recoveryHalt ∧
      (s.host.completeIrq tcn).cqeOn = s.host.cqeOn :=
    Host.completeIrq_induction
      (P := fun h => h.recoveryHalt = s.host.recoveryHalt ∧ h.cqeOn = s.host.cqeOn) ⟨rfl, rfl⟩
      (fun h tag hh => ⟨(Host.frame_finishMrq h tag).recoveryHalt.trans hh.1,
        (Host.frame_finishMrq h tag).cqeOn.trans hh.2⟩) (fun _ => id) tcn
  exact hs.congr hframe.1 (clear_completeIrq tcn) hframe.2

/-- A step keeps the engine on under the requests exactly if it meets the condition. -/
theorem engineOn_next_iff (hst : Staged s) (hs : EngineOn s)
    (hnext : queueSystem.next s a = some s') : EngineOn s' ↔ KeepsEngine s a := by
  cases a with
  | request mrq mapped =>
    obtain ⟨hissuing, rfl⟩ := Option.ite_some_none_eq_some.mp hnext
    refine iff_of_true ?_ trivial
    by_cases henabled : s.host.enabled = true
    · have hon : (s.host.prepare mrq mapped).1.cqeOn = true := by
        simp [Host.prepare, henabled]
      exact fun _ _ => hon
    · have hprep : s.host.prepare mrq mapped = (s.host, -einval) := if_pos henabled
      rw [hprep]
      exact hs.congr rfl (fun hc => ⟨rfl, hc.2⟩) rfl
  | submit =>
    obtain ⟨mrq, hissuing, rfl⟩ := Option.map_eq_some_iff.mp hnext
    refine iff_of_true ?_ trivial
    have hbusy : ¬s.Clear := fun hc => nomatch hissuing.symm.trans hc.1
    have hframe : (s.host.submit mrq).1.recoveryHalt = s.host.recoveryHalt ∧
        (s.host.submit mrq).1.cqeOn = s.host.cqeOn := by
      unfold Host.submit
      split_ifs <;> exact ⟨rfl, rfl⟩
    exact fun hrun _ => hframe.2.trans (hs (hframe.1.symm.trans hrun) hbusy)
  | errorIrq cmdError dataError terri =>
    obtain rfl := Option.some.inj hnext
    refine iff_of_true ?_ trivial
    rcases Host.errorIrq_eq_or_alerted hst.quiet cmdError dataError terri with heq | halert
    · rwa [heq]
    · exact fun hrun _ => absurd (halert.halted.symm.trans hrun) (by decide)
  | completeIrq tcn =>
    obtain rfl := Option.some.inj hnext
    exact iff_of_true (engineOn_completeIrq hs tcn) trivial
  | wakeIrq =>
    obtain rfl := Option.some.inj hnext
    exact iff_of_true hs trivial
  | waitForIdle w =>
    obtain ⟨-, rfl⟩ := Option.ite_some_none_eq_some.mp hnext
    exact iff_of_true hs trivial
  | isIdle w =>
    obtain ⟨-, rfl⟩ := Option.ite_some_none_eq_some.mp hnext
    exact iff_of_true hs trivial
  | timeout mrq =>
    obtain rfl := Option.some.inj hnext
    refine iff_of_true ?_ trivial
    rcases Host.timeout_cases hst.quiet mrq with ⟨-, heq⟩ | ⟨-, halert, -⟩
    · rwa [heq]
    · exact fun hrun _ => absurd (halert.halted.symm.trans hrun) (by decide)
  | recoveryStart =>
    obtain ⟨⟨-, hasked⟩, rfl⟩ := Option.ite_some_none_eq_some.mp hnext
    refine iff_of_true (fun hrun _ => ?_) trivial
    exact absurd ((hst.halted_of_asked hasked).symm.trans hrun) (by decide)
  | recoverMrq =>
    refine iff_of_true ?_ trivial
    cases hrecovery : s.recovery with
    | idle => simp [queueSystem, hrecovery] at hnext
    | recovering i =>
      simp only [queueSystem, hrecovery] at hnext
      obtain ⟨hi, hstate⟩ := Option.dite_none_right_eq_some.mp hnext
      obtain rfl := Option.some.inj hstate
      have hhalt := (Host.frame_recoverMrq s.host ⟨i, hi⟩).recoveryHalt.trans
        (hst.halted i hrecovery)
      exact fun hrun _ => absurd (hhalt.symm.trans hrun) (by decide)
  | recoveryFinish =>
    obtain ⟨hrecovery, rfl⟩ := Option.ite_some_none_eq_some.mp hnext
    have hzero : s.host.queued = 0 := hst.queued_eq_zero hrecovery
    constructor
    · intro hon
      by_contra hissuing
      exact Bool.false_ne_true (hon rfl fun hc => hissuing hc.1)
    · exact fun hissuing _ hbusy => absurd ⟨hissuing, hzero⟩ hbusy
  | off =>
    obtain rfl := Option.some.inj hnext
    refine engineOn_turnedOff_iff hs (Host.switchOnly_off _) (fun h₁ h₂ h₃ => ?_) fun henabled => ?_
    · exact cqeOn_off h₁ h₂ h₃
    · simp [Host.off, henabled]
  | suspend =>
    obtain rfl := Option.some.inj hnext
    refine engineOn_turnedOff_iff hs (Host.switchOnly_suspend _) (fun h₁ _ _ => ?_)
      fun henabled => ?_
    · simp [Host.suspend, Host.disableEngine, h₁]
    · simp [Host.suspend, henabled]
  | enable allocated =>
    obtain rfl := Option.some.inj hnext
    refine iff_of_true ?_ trivial
    have hframe : (s.host.enable allocated).recoveryHalt = s.host.recoveryHalt ∧
        (s.host.enable allocated).queued = s.host.queued := by
      unfold Host.enable
      split_ifs <;> exact ⟨rfl, rfl⟩
    intro hrun hbusy
    exact cqeOn_enable allocated
      (hs (hframe.1.symm.trans hrun) fun hc => hbusy ⟨hc.1, hframe.2.trans hc.2⟩)
  | disable =>
    obtain rfl := Option.some.inj hnext
    refine engineOn_turnedOff_iff hs (Host.switchOnly_disable _) (fun h₁ _ _ => ?_)
      fun henabled => ?_
    · simp [Host.disable, Host.disableEngine, h₁]
    · simp [Host.disable, henabled]

/-- **The engine.** In all states of a run the engine is on as long as a request is in a slot or on
its way there, while the queue is not halted, exactly if nobody turns it off then and no recovery
ends between the two halves of `cqhci_request`. -/
theorem always_engineOn_iff (hrun : queueSystem.run as = some s) :
    queueSystem.Always EngineOn queueSystem.init as ↔
      queueSystem.Obeys KeepsEngine queueSystem.init as :=
  queueSystem.always_iff_obeys (S := Staged) (fun _ _ _ hst _ => hst.next)
    (fun _ _ _ hst hs => engineOn_next_iff hst hs) staged_init
    (fun _ hbusy => absurd ⟨rfl, SlotTable.contents_eq_zero.mpr fun _ => rfl⟩ hbusy) hrun

theorem always_engineOn_iff_sampleRun :
    queueSystem.Always EngineOn queueSystem.init sampleRun :=
  (always_engineOn_iff (run_eq_afterRun (by decide +kernel))).mpr (by decide +kernel)

end LinuxDriver.Cqhci
