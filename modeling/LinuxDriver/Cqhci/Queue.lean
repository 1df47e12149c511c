import LinuxDriver.Lts
import LinuxDriver.Cqhci.Host

/-!
# The command queue as a system

One request at a time is issued, and any number of tasks may wait for the queue to become idle.
Interrupts, timeouts and recovery come at any moment. `cqhci_request` prepares a request before it
takes the lock, so everything may happen between its two halves. Recovery is asked for by a halted
queue, runs once at a time, and gives the requests back slot by slot without the lock.

Nothing in the driver looks whether the slot of a new request is free: that is left to the tags of
the layer above. The accounting is correct in all states of a run exactly if it is so.

## Main definitions

* `RecoveryPc`, `State`, `Action`, `queueSystem`.
* `Staged`: what holds at each stage of recovery.
* `Accounted`: the counter and the conservation of requests.
* `FillsFree`: the condition on a step.

## Main results

* `staged_next`, `staged`: every run keeps the stages.
* `accounted_next_iff`, `always_accounted_iff`: which runs keep the accounting.
-/

namespace LinuxDriver.Cqhci

/-- `mmc_cqe_recovery`: not running, or between `cqhci_recovery_start` and the end of
`cqhci_recovery_finish`, with the slots below `next` done by `cqhci_recover_mrqs`. -/
inductive RecoveryPc
  | idle
  | recovering (next : ℕ)
  deriving DecidableEq

/-- The host, the request between the two halves of `cqhci_request`, the requests accepted so far,
and the recoveries finished so far. -/
structure State where
  host : Host
  issuing : Option Mrq
  accepted : List Mrq
  recovery : RecoveryPc
  recoveries : ℕ

/-- One critical section, or one step between two of them. -/
inductive Action
  | request (mrq : Mrq) (mapped : Bool)
  | submit
  | errorIrq (cmdError dataError : ℤ) (terri : BitVec 32)
  | completeIrq (tcn : BitVec 32)
  | wakeIrq
  | waitForIdle (w : ℕ)
  | isIdle (w : ℕ)
  | timeout (mrq : Mrq)
  | recoveryStart
  | recoverMrq
  | recoveryFinish
  | off
  | suspend
  | enable (allocated : Bool)
  | disable
  deriving DecidableEq

/-- The host after `cqhci_init`. -/
def Host.init : Host where
  enabled := false
  activated := false
  cqeOn := false
  recoveryHalt := false
  waitingForIdle := false
  qcnt := 0
  slot := fun _ => ⟨none, ∅⟩
  waiter := fun _ => .away
  asked := false
  done := []

/-- A task put somewhere else in `cqhci_wait_for_idle`. -/
def Host.setWaiter (h : Host) (w : ℕ) (pc : WaiterPc) : Host :=
  { h with waiter := Function.update h.waiter w pc }

/-- One step of the condition loop of `wait_event` in `cqhci_wait_for_idle`. -/
def Host.wait (h : Host) (w : ℕ) : Host :=
  h.isIdle.1.setWaiter w (if h.isIdle.2.1 then .away else .asleep)

/-- The second half of `cqhci_request`. -/
def State.submit (s : State) (mrq : Mrq) : State :=
  { s with
    host := (s.host.submit mrq).1
    issuing := none
    accepted := if (s.host.submit mrq).2 = 0 then s.accepted ++ [mrq] else s.accepted }

/-- The command queue with everything that acts on it. -/
def queueSystem : Lts State Action where
  init := ⟨.init, none, [], .idle, 0⟩
  next s
    | .request mrq mapped =>
      if s.issuing = none then
        some { s with
          host := (s.host.prepare mrq mapped).1
          issuing := if (s.host.prepare mrq mapped).2 = 0 then some mrq else none }
      else none
    | .submit => s.issuing.map s.submit
    | .errorIrq cmdError dataError terri =>
      some { s with host := s.host.errorIrq cmdError dataError terri }
    | .completeIrq tcn => some { s with host := s.host.completeIrq tcn }
    | .wakeIrq => some { s with host := s.host.wakeUp }
    | .waitForIdle w =>
      if s.host.waiter w = .away then some { s with host := s.host.setWaiter w .awake } else none
    | .isIdle w =>
      if s.host.waiter w = .awake then some { s with host := s.host.wait w } else none
    | .timeout mrq => some { s with host := (s.host.timeout mrq).1 }
    | .recoveryStart =>
      if s.recovery = .idle ∧ s.host.asked then
        some { s with host := { s.host with cqeOn := false }, recovery := .recovering 0 }
      else none
    | .recoverMrq =>
      match s.recovery with
      | .recovering i =>
        if hi : i < 32 then
          some { s with host := s.host.recoverMrq ⟨i, hi⟩, recovery := .recovering (i + 1) }
        else none
      | .idle => none
    | .recoveryFinish =>
      if s.recovery = .recovering 32 then
        some { s with
          host := s.host.recoveryFinish
          recovery := .idle
          recoveries := s.recoveries + 1 }
      else none
    | .off => some { s with host := s.host.off }
    | .suspend => some { s with host := s.host.suspend }
    | .enable allocated => some { s with host := s.host.enable allocated }
    | .disable => some { s with host := s.host.disable }

/-- A new request finds its slot free. -/
def FillsFree (s : State) : Action → Prop
  | .submit => s.host.recoveryHalt = true ∨ ∀ mrq ∈ s.issuing, s.host.mrqs (cqhciTag mrq) = none
  | _ => True

instance (s : State) : (a : Action) → Decidable (FillsFree s a)
  | .submit => inferInstanceAs (Decidable (_ ∨ _))
  | .request _ _ | .errorIrq _ _ _ | .completeIrq _ | .wakeIrq | .waitForIdle _ | .isIdle _
  | .timeout _ | .recoveryStart | .recoverMrq | .recoveryFinish | .off | .suspend | .enable _
  | .disable => isTrue trivial

/-! ### What a step does -/

/-- What is counted and conserved, and the halt, are as they were. -/
structure SameState (s s' : State) : Prop where
  slot : s'.host.slot = s.host.slot
  qcnt : s'.host.qcnt = s.host.qcnt
  done : s'.host.done = s.host.done
  recoveryHalt : s'.host.recoveryHalt = s.host.recoveryHalt
  asked : s'.host.asked = s.host.asked
  recovery : s'.recovery = s.recovery
  recoveries : s'.recoveries = s.recoveries
  accepted : s'.accepted = s.accepted

/-- The kinds of steps. -/
inductive Effect (s : State) : Action → State → Prop
  | still {a : Action} {s' : State} (ha : FillsFree s a) (hsame : SameState s s')
      (hwaiter : s.host.recoveryHalt = true → ∀ w, s.host.waiter w ≠ .asleep →
        s'.host.waiter w ≠ .asleep) : Effect s a s'
  | alerted {a : Action} {h' : Host} (ha : FillsFree s a) (halert : s.host.Alerted h') :
      Effect s a { s with host := h' }
  | accepted {mrq : Mrq} (hissuing : s.issuing = some mrq) (hhalt : s.host.recoveryHalt = false) :
      Effect s .submit { s with
        host := (s.host.submit mrq).1
        issuing := none
        accepted := s.accepted ++ [mrq] }
  | completed (tcn : BitVec 32) :
      Effect s (.completeIrq tcn) { s with host := s.host.completeIrq tcn }
  | started (hrecovery : s.recovery = .idle) (hasked : s.host.asked = true) :
      Effect s .recoveryStart
        { s with host := { s.host with cqeOn := false }, recovery := .recovering 0 }
  | recovered {i : ℕ} (hi : i < 32) (hrecovery : s.recovery = .recovering i) :
      Effect s .recoverMrq
        { s with host := s.host.recoverMrq ⟨i, hi⟩, recovery := .recovering (i + 1) }
  | finished (hrecovery : s.recovery = .recovering 32) :
      Effect s .recoveryFinish
        { s with
          host := s.host.recoveryFinish
          recovery := .idle
          recoveries := s.recoveries + 1 }

variable {s s' : State} {a : Action}

theorem Effect.switched {issuing : Option Mrq} {h' : Host} (ha : FillsFree s a)
    (hswitch : s.host.SwitchOnly h') : Effect s a { s with host := h', issuing := issuing } := by
  obtain ⟨enabled, activated, cqeOn, rfl⟩ := hswitch
  exact .still ha ⟨rfl, rfl, rfl, rfl, rfl, rfl, rfl, rfl⟩ fun _ _ => id

theorem Effect.same {h' : Host} (ha : FillsFree s a) (hsame : SameState s { s with host := h' })
    (hwaiter : s.host.recoveryHalt = true → ∀ w, s.host.waiter w ≠ .asleep →
      h'.waiter w ≠ .asleep) : Effect s a { s with host := h' } :=
  .still ha hsame hwaiter

theorem setWaiter_waiter_ne_asleep {h : Host} {w : ℕ} {pc : WaiterPc} (hpc : pc ≠ .asleep) {v : ℕ}
    (hv : h.waiter v ≠ .asleep) : (h.setWaiter w pc).waiter v ≠ .asleep := by
  by_cases hvw : v = w
  · subst hvw
    simpa [Host.setWaiter] using hpc
  · simpa [Host.setWaiter, Function.update_of_ne hvw] using hv

/-- A task does not fall asleep on a halted queue. -/
theorem wait_waiter_ne_asleep {h : Host} (hhalt : h.recoveryHalt = true) {w v : ℕ}
    (hv : h.waiter v ≠ .asleep) : (h.wait w).waiter v ≠ .asleep := by
  have hidle : h.isIdle.2.1 = true := by simp [Host.isIdle, hhalt]
  unfold Host.wait
  rw [if_pos hidle]
  exact setWaiter_waiter_ne_asleep (by decide) hv

/-- **Inversion of a step.** -/
theorem effect_of_next (hq : s.host.Quiet) (hnext : queueSystem.next s a = some s') :
    Effect s a s' := by
  cases a with
  | request mrq mapped =>
    obtain ⟨hissuing, rfl⟩ := Option.ite_some_none_eq_some.mp hnext
    exact .switched trivial (Host.switchOnly_prepare _ mrq mapped)
  | submit =>
    obtain ⟨mrq, hissuing, rfl⟩ := Option.map_eq_some_iff.mp hnext
    by_cases hhalt : s.host.recoveryHalt = true
    · have hsubmit : s.host.submit mrq = (s.host, -ebusy) := if_pos hhalt
      have hstate : s.submit mrq = { s with issuing := none } := by
        simp [State.submit, hsubmit, ebusy]
      rw [hstate]
      exact .still (.inl hhalt) ⟨rfl, rfl, rfl, rfl, rfl, rfl, rfl, rfl⟩ fun _ _ => id
    · have hsubmit : (s.host.submit mrq).2 = 0 := by rw [Host.submit, if_neg hhalt]
      have hstate : s.submit mrq = { s with
          host := (s.host.submit mrq).1, issuing := none, accepted := s.accepted ++ [mrq] } := by
        simp [State.submit, hsubmit]
      rw [hstate]
      exact .accepted hissuing (by simpa using hhalt)
  | errorIrq cmdError dataError terri =>
    obtain rfl := Option.some.inj hnext
    rcases Host.errorIrq_eq_or_alerted hq cmdError dataError terri with heq | halert
    · exact .same trivial (by rw [heq]; exact ⟨rfl, rfl, rfl, rfl, rfl, rfl, rfl, rfl⟩)
        fun _ w hw => by rwa [heq]
    · exact .alerted trivial halert
  | completeIrq tcn =>
    obtain rfl := Option.some.inj hnext
    exact .completed tcn
  | wakeIrq =>
    obtain rfl := Option.some.inj hnext
    exact .same trivial ⟨rfl, rfl, rfl, rfl, rfl, rfl, rfl, rfl⟩
      fun _ w _ => Host.wakeUp_waiter_ne_asleep _ w
  | waitForIdle w =>
    obtain ⟨-, rfl⟩ := Option.ite_some_none_eq_some.mp hnext
    exact .same trivial ⟨rfl, rfl, rfl, rfl, rfl, rfl, rfl, rfl⟩
      fun _ v hv => setWaiter_waiter_ne_asleep (by decide) hv
  | isIdle w =>
    obtain ⟨-, rfl⟩ := Option.ite_some_none_eq_some.mp hnext
    exact .same trivial ⟨rfl, rfl, rfl, rfl, rfl, rfl, rfl, rfl⟩
      fun hhalt v hv => wait_waiter_ne_asleep hhalt hv
  | timeout mrq =>
    obtain rfl := Option.some.inj hnext
    rcases Host.timeout_cases hq mrq with ⟨-, heq⟩ | ⟨-, halert, -⟩
    · exact .same trivial (by rw [heq]; exact ⟨rfl, rfl, rfl, rfl, rfl, rfl, rfl, rfl⟩)
        fun _ w hw => by rwa [heq]
    · exact .alerted trivial halert
  | recoveryStart =>
    obtain ⟨⟨hrecovery, hasked⟩, rfl⟩ := Option.ite_some_none_eq_some.mp hnext
    exact .started hrecovery hasked
  | recoverMrq =>
    cases hrecovery : s.recovery with
    | idle => simp [queueSystem, hrecovery] at hnext
    | recovering i =>
      simp only [queueSystem, hrecovery] at hnext
      obtain ⟨hi, hstate⟩ := Option.dite_none_right_eq_some.mp hnext
      obtain rfl := Option.some.inj hstate
      exact .recovered hi hrecovery
  | recoveryFinish =>
    obtain ⟨hrecovery, rfl⟩ := Option.ite_some_none_eq_some.mp hnext
    exact .finished hrecovery
  | off =>
    obtain rfl := Option.some.inj hnext
    exact .switched trivial (Host.switchOnly_off _)
  | suspend =>
    obtain rfl := Option.some.inj hnext
    exact .switched trivial (Host.switchOnly_suspend _)
  | enable allocated =>
    obtain rfl := Option.some.inj hnext
    exact .switched trivial (Host.switchOnly_enable _ allocated)
  | disable =>
    obtain rfl := Option.some.inj hnext
    exact .switched trivial (Host.switchOnly_disable _)

/-! ### The stages of recovery -/

/-- A halted queue has asked for recovery and lets nobody sleep, only a halted queue has asked,
recovery runs on a halted queue only, and what it has gone through is free. -/
structure Staged (s : State) : Prop where
  quiet : s.host.Quiet
  halted_of_asked : s.host.asked = true → s.host.recoveryHalt = true
  halted : ∀ i, s.recovery = .recovering i → s.host.recoveryHalt = true
  emptied : ∀ i, s.recovery = .recovering i → ∀ tag : Tag, tag.val < i → s.host.mrqs tag = none

theorem staged_init : Staged queueSystem.init where
  quiet := ⟨fun h => (by cases h), fun h => (by cases h)⟩
  halted_of_asked h := by cases h
  halted i h := by cases h
  emptied i h := by cases h

variable {s s' : State} {a : Action}

/-- The stages only look at the requests in the slots, the halt, who asked and who sleeps. -/
theorem Staged.congr (hs : Staged s) (hrecovery : s'.recovery = s.recovery)
    (hmrqs : ∀ tag, s.host.mrqs tag = none → s'.host.mrqs tag = none)
    (hhalt : s'.host.recoveryHalt = s.host.recoveryHalt) (hasked : s'.host.asked = s.host.asked)
    (hwaiter : s.host.recoveryHalt = true → ∀ w, s.host.waiter w ≠ .asleep →
      s'.host.waiter w ≠ .asleep) : Staged s' where
  quiet :=
    ⟨fun h w => hwaiter (hhalt ▸ h) w (hs.quiet.awake (hhalt ▸ h) w),
      fun h => hasked ▸ hs.quiet.asked (hhalt ▸ h)⟩
  halted_of_asked h := hhalt ▸ hs.halted_of_asked (hasked ▸ h)
  halted i h := hhalt ▸ hs.halted i (hrecovery ▸ h)
  emptied i h tag ht := hmrqs tag (hs.emptied i (hrecovery ▸ h) tag ht)

/-- An alert keeps the stages. -/
theorem Staged.alerted (hs : Staged s) (ha : s.host.Alerted s'.host)
    (hrecovery : s'.recovery = s.recovery) : Staged s' where
  quiet := ha.toQuiet
  halted_of_asked _ := ha.halted
  halted _ _ := ha.halted
  emptied i h tag ht := by
    rw [ha.mrqs]
    exact hs.emptied i (hrecovery ▸ h) tag ht

/-- A completion interrupt leaves the stages as they are. -/
theorem Staged.completeIrq (hs : Staged s) (tcn : BitVec 32) :
    Staged { s with host := s.host.completeIrq tcn } := by
  refine Host.completeIrq_induction (P := fun h => Staged { s with host := h }) hs ?_ ?_ tcn
  · intro h tag hs
    have hf := Host.frame_finishMrq h tag
    exact hs.congr rfl hf.free hf.recoveryHalt hf.asked fun _ w hw => by rwa [hf.waiter]
  · intro h hs
    exact hs.congr rfl (fun _ => id) rfl rfl fun _ w _ => Host.wakeUp_waiter_ne_asleep _ w

theorem Staged.next (hs : Staged s) (hnext : queueSystem.next s a = some s') : Staged s' := by
  cases effect_of_next hs.quiet hnext with
  | still _ hsame hwaiter =>
    exact hs.congr hsame.recovery (fun tag => by simp [Host.mrqs, hsame.slot]) hsame.recoveryHalt
      hsame.asked hwaiter
  | alerted _ halert => exact hs.alerted halert rfl
  | @accepted mrq hissuing hhalt =>
    have hnot : ∀ i, s.recovery ≠ .recovering i := fun i hi =>
      Bool.false_ne_true (hhalt.symm.trans (hs.halted i hi))
    have hhost : (s.host.submit mrq).1.recoveryHalt = false := by
      rw [Host.submit, if_neg (by simp [hhalt])]
      exact hhalt
    have hasked : (s.host.submit mrq).1.asked = s.host.asked := by
      rw [Host.submit, if_neg (by simp [hhalt])]
      rfl
    refine ⟨⟨fun h => ?_, fun h => ?_⟩, fun h => ?_, fun i hi => absurd hi (hnot i),
      fun i hi => absurd hi (hnot i)⟩
    · exact absurd (hhost.symm.trans h) (by decide)
    · exact absurd (hhost.symm.trans h) (by decide)
    · exact absurd (hhalt.symm.trans (hs.halted_of_asked (hasked ▸ h))) (by decide)
  | completed tcn => exact hs.completeIrq tcn
  | started hrecovery hasked =>
    have hhalt : s.host.recoveryHalt = true := hs.halted_of_asked hasked
    exact ⟨⟨hs.quiet.awake, hs.quiet.asked⟩, hs.halted_of_asked, fun _ _ => hhalt,
      fun i hi tag ht => by cases hi; exact absurd ht (Nat.not_lt_zero _)⟩
  | @recovered i hi hrecovery =>
    have hf := Host.frame_recoverMrq s.host ⟨i, hi⟩
    have hhalt : (s.host.recoverMrq ⟨i, hi⟩).recoveryHalt = true :=
      hf.recoveryHalt.trans (hs.halted i hrecovery)
    refine ⟨⟨fun _ w => ?_, fun _ => ?_⟩, fun _ => hhalt, fun _ _ => hhalt, fun j hj tag ht => ?_⟩
    · rw [hf.waiter]
      exact hs.quiet.awake (hs.halted i hrecovery) w
    · rw [hf.asked]
      exact hs.quiet.asked (hs.halted i hrecovery)
    · obtain rfl : i + 1 = j := by cases hj; rfl
      rcases Nat.lt_succ_iff_lt_or_eq.mp ht with hlt | heq
      · exact hf.free tag (hs.emptied i hrecovery tag hlt)
      · obtain rfl : tag = ⟨i, hi⟩ := Fin.ext heq
        exact Host.mrqs_recoverMrq_self s.host _
  | finished hrecovery =>
    exact ⟨⟨fun h => (by cases h), fun h => (by cases h)⟩, fun h => (by cases h),
      fun i h => (by cases h), fun i h => (by cases h)⟩

/-- The stages hold in every reachable state. -/
theorem staged (hs : queueSystem.Reachable s) : Staged s :=
  queueSystem.invariant staged_init (fun _ _ _ => Staged.next) hs

/-! ### The accounting -/

/-- `qcnt` counts the requests in the slots, and every accepted request is in a slot or has been
given back, as often as it was accepted. -/
structure Accounted (s : State) : Prop where
  counted : s.host.qcnt = s.host.queued.card
  conserved : (s.accepted : Multiset Mrq) = ↑(s.host.done.map (·.mrq)) + s.host.queued

theorem accounted_init : Accounted queueSystem.init where
  counted := by
    have hqueued : queueSystem.init.host.queued = 0 := SlotTable.contents_eq_zero.mpr fun _ => rfl
    rw [hqueued]
    rfl
  conserved := by
    have hqueued : queueSystem.init.host.queued = 0 := SlotTable.contents_eq_zero.mpr fun _ => rfl
    rw [hqueued]
    rfl

theorem Accounted.congr (hs : Accounted s) (hmrqs : s'.host.mrqs = s.host.mrqs)
    (hqcnt : s'.host.qcnt = s.host.qcnt) (hdone : s'.host.done = s.host.done)
    (haccepted : s'.accepted = s.accepted) : Accounted s' := by
  have hqueued : s'.host.queued = s.host.queued := by rw [Host.queued, hmrqs, Host.queued]
  exact ⟨by rw [hqcnt, hqueued, hs.counted], by rw [haccepted, hdone, hqueued, hs.conserved]⟩

/-- A request given back stays accounted for. -/
theorem Accounted.giveBack {tag : Tag} {mrq : Mrq} (hs : Accounted s)
    (hmrq : s.host.mrqs tag = some mrq) {c : Completion} (hc : c.mrq = mrq) :
    Accounted { s with host := s.host.giveBack tag c } := by
  have hqueued : mrq ::ₘ (s.host.giveBack tag c).queued = s.host.queued :=
    Host.queued_giveBack hmrq c
  constructor
  · have hcard : (s.host.giveBack tag c).queued.card + 1 = s.host.queued.card := by
      rw [← hqueued, Multiset.card_cons]
    have hqcnt : (s.host.giveBack tag c).qcnt = s.host.qcnt - 1 := rfl
    rw [hqcnt, hs.counted, ← hcard]
    push_cast
    ring
  · have hdone : (s.host.giveBack tag c).done.map (·.mrq) = s.host.done.map (·.mrq) ++ [mrq] := by
      rw [← hc]
      exact List.map_append
    rw [hs.conserved, ← hqueued, hdone, ← Multiset.coe_add, Multiset.coe_singleton, add_assoc,
      Multiset.singleton_add]

theorem mrq_finishedWith (mrq : Mrq) : (Host.finishedWith mrq).mrq = mrq := by
  unfold Host.finishedWith
  cases mrq.data <;> rfl

theorem mrq_recoveredWith (mrq : Mrq) (flags : Finset SlotFlag) :
    (Host.recoveredWith mrq flags).mrq = mrq := by
  unfold Host.recoveredWith
  split_ifs <;> rfl

theorem Accounted.completeIrq (hs : Accounted s) (tcn : BitVec 32) :
    Accounted { s with host := s.host.completeIrq tcn } := by
  refine Host.completeIrq_induction (P := fun h => Accounted { s with host := h }) hs ?_ ?_ tcn
  · intro h tag hs
    rcases h.finishMrq_cases tag with ⟨-, heq⟩ | ⟨mrq, hmrq, ⟨-, heq⟩ | ⟨-, heq⟩⟩
    · rwa [heq]
    · rw [heq]
      exact hs.congr (s := { s with host := h }) (Host.mrqs_setFlags h tag _) rfl rfl rfl
    · rw [heq]
      exact hs.giveBack (s := { s with host := h }) hmrq (mrq_finishedWith mrq)
  · intro h hs
    exact hs.congr (s := { s with host := h }) rfl rfl rfl rfl

/-- A request put into a slot is accounted for exactly if the slot was free. -/
theorem accounted_submit_iff {mrq : Mrq} (hs : Accounted s)
    (hhalt : s.host.recoveryHalt = false) :
    Accounted { s with
      host := (s.host.submit mrq).1
      issuing := none
      accepted := s.accepted ++ [mrq] } ↔ s.host.mrqs (cqhciTag mrq) = none := by
  have hqcnt : (s.host.submit mrq).1.qcnt = s.host.qcnt + 1 := by
    rw [Host.submit, if_neg (by simp [hhalt])]
  have hdone : (s.host.submit mrq).1.done = s.host.done := by
    rw [Host.submit, if_neg (by simp [hhalt])]
    rfl
  constructor
  · intro haccounted
    by_contra hne
    obtain ⟨old, hold⟩ := Option.ne_none_iff_exists'.mp hne
    -- the new request replaces the old one, so that the slots hold as many as before
    have hcard := Host.card_queued_submit_of_some hhalt hold
    have hcounted : (s.host.submit mrq).1.qcnt = (s.host.submit mrq).1.queued.card :=
      haccounted.counted
    rw [hqcnt, hs.counted, hcard] at hcounted
    omega
  · intro hfree
    have hqueued := Host.queued_submit hhalt hfree
    constructor
    · change (s.host.submit mrq).1.qcnt = ((s.host.submit mrq).1.queued.card : ℤ)
      rw [hqcnt, hqueued, Multiset.card_cons, hs.counted]
      push_cast
      ring
    · change ((s.accepted ++ [mrq] : List Mrq) : Multiset Mrq) =
        ↑((s.host.submit mrq).1.done.map (·.mrq)) + (s.host.submit mrq).1.queued
      rw [hdone, hqueued, ← Multiset.coe_add, hs.conserved, Multiset.coe_singleton, add_assoc,
        ← Multiset.singleton_add, add_comm s.host.queued]

theorem Accounted.recoverMrq (hs : Accounted s) (tag : Tag) {recovery : RecoveryPc} :
    Accounted { s with host := s.host.recoverMrq tag, recovery := recovery } := by
  rcases s.host.recoverMrq_cases tag with ⟨-, heq⟩ | ⟨mrq, hmrq, heq⟩
  · rw [heq]
    exact hs.congr rfl rfl rfl rfl
  · rw [heq]
    exact (hs.giveBack hmrq (mrq_recoveredWith mrq _)).congr rfl rfl rfl rfl

/-- When recovery has gone through all the slots, they are free. -/
theorem Staged.queued_eq_zero (hs : Staged s) (hrecovery : s.recovery = .recovering 32) :
    s.host.queued = 0 :=
  SlotTable.contents_eq_zero.mpr fun tag => hs.emptied 32 hrecovery tag tag.isLt

theorem Accounted.recoveryFinish (hs : Accounted s) (hzero : s.host.queued = 0) :
    Accounted { s with
      host := s.host.recoveryFinish, recovery := .idle, recoveries := s.recoveries + 1 } := by
  refine hs.congr rfl ?_ rfl rfl
  rw [hs.counted, hzero]
  rfl

/-- A step keeps the accounting exactly if it puts no request into an occupied slot. -/
theorem accounted_next_iff (hst : Staged s) (hs : Accounted s)
    (hnext : queueSystem.next s a = some s') : Accounted s' ↔ FillsFree s a := by
  cases effect_of_next hst.quiet hnext with
  | still ha hsame =>
    have hmrqs : s'.host.mrqs = s.host.mrqs := by
      funext tag
      rw [Host.mrqs, hsame.slot, Host.mrqs]
    exact iff_of_true (hs.congr hmrqs hsame.qcnt hsame.done hsame.accepted) ha
  | alerted ha halert =>
    exact iff_of_true (hs.congr halert.mrqs halert.qcnt halert.done rfl) ha
  | accepted hissuing hhalt =>
    rw [accounted_submit_iff hs hhalt]
    simp [FillsFree, hissuing, hhalt]
  | completed tcn => exact iff_of_true (hs.completeIrq tcn) trivial
  | started => exact iff_of_true (hs.congr rfl rfl rfl rfl) trivial
  | recovered hi => exact iff_of_true (hs.recoverMrq _) trivial
  | finished hrecovery =>
    exact iff_of_true (hs.recoveryFinish (hst.queued_eq_zero hrecovery)) trivial

/-- **Accounting.** The counter of the queue is right, and every accepted request is in its slot or
was given back, as often as it was accepted, in all states of a run exactly if the run never puts a
request into an occupied slot. -/
theorem always_accounted_iff {as : List Action} (hrun : queueSystem.run as = some s) :
    queueSystem.Always Accounted queueSystem.init as ↔
      queueSystem.Obeys FillsFree queueSystem.init as :=
  queueSystem.always_iff_obeys (S := Staged) (fun _ _ _ hst _ => hst.next)
    (fun _ _ _ hst hs => accounted_next_iff hst hs) staged_init accounted_init hrun

/-! ### A run -/

/-- The last state of a run. -/
def afterRun (as : List Action) : State := (queueSystem.run as).getD queueSystem.init

theorem run_eq_afterRun {as : List Action} (h : (queueSystem.run as).isSome) :
    queueSystem.run as = some (afterRun as) := by
  obtain ⟨s, hs⟩ := Option.isSome_iff_exists.mp h
  rw [afterRun, hs]
  rfl

/-- A read and a flush are queued, and a task waits for them. The flush is completed, and the read
fails. -/
def haltedRun : List Action :=
  [.enable true, .request (readMrq 0) true, .submit, .request (flushMrq 1) true, .submit,
    .waitForIdle 0, .isIdle 0, .completeIrq 0x80000000, .errorIrq (-eilseq) 0 0]

/-- All of recovery but its end. -/
def recoveringRun : List Action := .recoveryStart :: List.replicate 32 .recoverMrq

/-- Recovery from the failure, and the read issued again and completed. -/
def sampleRun : List Action :=
  haltedRun ++ recoveringRun ++
    [.recoveryFinish, .request (readMrq 0) true, .submit, .isIdle 0, .completeIrq 0x20]

theorem always_accounted_iff_sampleRun :
    queueSystem.Always Accounted queueSystem.init sampleRun :=
  (always_accounted_iff (run_eq_afterRun (by decide +kernel))).mpr (by decide +kernel)

end LinuxDriver.Cqhci
