import LinuxDriver.Kernel
import LinuxDriver.Lts

/-!
# Handing over completed requests

On a host without `MMC_CAP_DONE_COMPLETE` the callback `mmc_blk_mq_req_done` cannot complete its
request. It leaves the request in `complete_req`, clears `rw_wait`, and wakes the task that waits in
`mmc_blk_rw_wait`, or queues `complete_work` when nobody waits. The request is then completed by
whichever comes first: the work, or the next call of `mmc_blk_mq_issue_rw_rq` or
`mmc_blk_wait_for_idle`.

There is one issuing task at a time, and a step is one critical section of `queue_lock` or
`complete_lock`, or one access without a lock. The steps of `wait_event` are its evaluations of the
condition, its entry into the wait queue and the return from its sleep; a wake-up that finds the
task outside the queue is lost. A request is named by the number of its call.

## Main definitions

* `mmcBlkRwWaitCond`, `HandoffState.completePrevReq`.
* `IssuerPc`, `HandoffState`: the issuing task, the callback, the work and what they share.
* `handoffSystem`: their steps in any order.
* `HandoffCorrect`: one active request, no overwritten one, each completed once, and none forgotten.

## Main results

* `handoff_correct`: every reachable state is correct.
-/

namespace LinuxDriver.Mmc

/-! ### The state -/

/-- What the issuing task does after its wait: start the request `r`, or a synchronous one. -/
inductive Job
  | rw (r : ℕ)
  | sync
  deriving DecidableEq

/-- The request to start, if there is one. -/
def Job.req : Job → Option ℕ
  | rw r => some r
  | sync => none

/-- Where the issuing task is: in no call; in `wait_event`, before its first evaluation of the
condition, before it enters the wait queue, before a later evaluation, and asleep; before
`mmc_blk_mq_complete_prev_req`; and in `mmc_blk_mq_issue_rw_rq`, before it sets `rw_wait`, before
and after `mmc_start_request`, and after the previous request has been posted. -/
inductive IssuerPc
  | out
  | check (job : Job)
  | prepare (job : Job)
  | recheck (job : Job)
  | sleeping (job : Job)
  | collect (job : Job) (err : ℤ)
  | collected (r : ℕ) (prev : Option ℕ)
  | marked (r : ℕ) (prev : Option ℕ)
  | called (prev : Option ℕ) (err : Bool)
  | ended (err : Bool)
  deriving DecidableEq

namespace IssuerPc

/-- The request that is yet to be started. -/
def fresh : IssuerPc → Option ℕ
  | check job | prepare job | recheck job | sleeping job | collect job _ => job.req
  | collected r _ | marked r _ => some r
  | _ => none

/-- The previous request, which is yet to be posted. -/
def prev : IssuerPc → Option ℕ
  | collected _ prev | marked _ prev | called prev _ => prev
  | _ => none

/-- The last evaluation of the condition was false. -/
def waits : IssuerPc → Bool
  | prepare _ | recheck _ | sleeping _ => true
  | _ => false

/-- The task is in the wait queue. -/
def onQueue : IssuerPc → Bool
  | recheck _ | sleeping _ => true
  | _ => false

/-- The task goes on to `mmc_blk_mq_complete_prev_req` by itself if `rw_wait` is false. -/
def aboutToCollect : IssuerPc → Bool
  | check _ | prepare _ | recheck _ | collect .. => true
  | _ => false

def asleep : IssuerPc → Bool
  | sleeping _ => true
  | _ => false

end IssuerPc

/-- The fields of `mmc_queue`, the issuing task and whether its sleep was ended, the number of
calls so far, the requests that are active in the host, the calls of `wake_up` and of
`kblockd_schedule_work` that callbacks are to make, whether `complete_work` is queued and whether it
runs, and the requests whose callback ran, that were polled, and that were posted. -/
structure HandoffState where
  completeReq : Option ℕ
  rwWait : Bool
  waiting : Bool
  recoveryNeeded : Bool
  issuer : IssuerPc
  woken : Bool
  issued : ℕ
  active : List ℕ
  wakes : ℕ
  scheds : ℕ
  workQueued : Bool
  workRunning : Bool
  done : List ℕ
  polled : List ℕ
  posted : List ℕ

/-- The calls of the issuing task begin; its steps from a given point; the critical section of a
callback and the two calls that may follow it; and the work begins and ends. -/
inductive HandoffAction
  | issueRw
  | issueSync
  | check (job : Job)
  | prepare (job : Job)
  | recheck (job : Job)
  | resume (job : Job)
  | collect (job : Job) (err : ℤ)
  | mark (r : ℕ) (prev : Option ℕ)
  | start (r : ℕ) (prev : Option ℕ) (err : Bool)
  | post (prev : Option ℕ) (err : Bool)
  | finish (err : Bool)
  | reqDone (r : ℕ)
  | wakeUp
  | scheduleWork
  | runWork
  | completeWork

/-- `mmc_blk_rw_wait_cond`: its value, and the error. It sets `waiting` when its value is false. -/
def mmcBlkRwWaitCond (recoveryNeeded rwWait : Bool) : Bool × ℤ :=
  if recoveryNeeded then (true, -ebusy) else (!rwWait, 0)

namespace HandoffState

variable (s : HandoffState)

/-- `mmc_blk_mq_complete_prev_req`, which polls the request to complete. It hands it over to its
caller, or posts it. -/
def completePrevReq (handOver : Bool) : HandoffState :=
  match s.completeReq with
  | none => s
  | some r =>
    { s with
      completeReq := none
      polled := r :: s.polled
      posted := if handOver then s.posted else r :: s.posted }

/-- The evaluation of the condition of `wait_event`, and where the task goes if it is false. -/
def evalCond (job : Job) (wait : IssuerPc) : HandoffState :=
  let cond := mmcBlkRwWaitCond s.recoveryNeeded s.rwWait
  { s with waiting := !cond.1, issuer := if cond.1 then .collect job cond.2 else wait }

/-- When a step can be taken. -/
def Enabled : HandoffAction → Prop
  | .issueRw | .issueSync => s.issuer = .out
  | .check job => s.issuer = .check job
  | .prepare job => s.issuer = .prepare job
  | .recheck job => s.issuer = .recheck job
  | .resume job => s.issuer = .sleeping job ∧ s.woken = true
  | .collect job err => s.issuer = .collect job err
  | .mark r prev => s.issuer = .collected r prev
  | .start r prev _ => s.issuer = .marked r prev
  | .post prev err => s.issuer = .called prev err
  | .finish err => s.issuer = .ended err
  | .reqDone r => r ∈ s.active
  | .wakeUp => 0 < s.wakes
  | .scheduleWork => 0 < s.scheds
  | .runWork => s.workQueued = true ∧ s.workRunning = false
  | .completeWork => s.workRunning = true

instance : (a : HandoffAction) → Decidable (s.Enabled a)
  | .issueRw | .issueSync | .check _ | .prepare _ | .recheck _ | .collect .. | .mark .. | .start ..
  | .post .. | .finish _ | .completeWork => inferInstanceAs (Decidable (_ = _))
  | .resume _ | .runWork => inferInstanceAs (Decidable (_ ∧ _))
  | .reqDone r => inferInstanceAs (Decidable (r ∈ s.active))
  | .wakeUp | .scheduleWork => inferInstanceAs (Decidable (_ < _))

/-- What a step does. -/
def after : HandoffAction → HandoffState
  | .issueRw => { s with issuer := .check (.rw s.issued), issued := s.issued + 1 }
  | .issueSync => { s with issuer := .check .sync }
  | .check job => s.evalCond job (.prepare job)
  | .prepare job => { s with issuer := .recheck job, woken := false }
  | .recheck job => s.evalCond job (.sleeping job)
  | .resume job => { s with issuer := .prepare job }
  | .collect (.rw r) err =>
    { s.completePrevReq true with
      issuer := if err = 0 then .collected r s.completeReq else .out }
  | .collect .sync _ => { s.completePrevReq false with issuer := .out }
  | .mark r prev => { s with rwWait := true, issuer := .marked r prev }
  | .start r prev err =>
    { s with active := if err then s.active else r :: s.active, issuer := .called prev err }
  | .post prev err => { s with posted := prev.toList ++ s.posted, issuer := .ended err }
  | .finish err => { s with rwWait := if err then false else s.rwWait, issuer := .out }
  | .reqDone r =>
    { s with
      active := s.active.erase r
      done := r :: s.done
      completeReq := some r
      rwWait := false
      wakes := if s.waiting then s.wakes + 1 else s.wakes
      scheds := if s.waiting then s.scheds else s.scheds + 1 }
  | .wakeUp => { s with wakes := s.wakes - 1, woken := s.woken || s.issuer.onQueue }
  | .scheduleWork => { s with scheds := s.scheds - 1, workQueued := true }
  | .runWork => { s with workQueued := false, workRunning := true }
  | .completeWork => { s.completePrevReq false with workRunning := false }

def next (a : HandoffAction) : Option HandoffState :=
  if s.Enabled a then some (s.after a) else none

theorem next_eq_some {s s' : HandoffState} {a : HandoffAction} :
    s.next a = some s' ↔ s.Enabled a ∧ s.after a = s' := by
  rw [next, Option.ite_none_right_eq_some, Option.some.injEq]

/-- A run of `complete_work`, or a wake-up of the task that sleeps, is to come. -/
def CompletionPending : Prop :=
  s.workQueued = true ∨ s.workRunning = true ∨ 0 < s.scheds ∨
    s.issuer.asleep = true ∧ (s.woken = true ∨ 0 < s.wakes)

end HandoffState

/-- A queue with nothing started. -/
def handoffSystem : Lts HandoffState HandoffAction where
  init := ⟨none, false, false, false, .out, false, 0, [], 0, 0, false, false, [], [], []⟩
  next := HandoffState.next

/-- **A correct hand-over.** At most one request is active, and while one is, there is none in
`complete_req` that its callback would overwrite. A request whose callback ran, and no other, is
polled once, or is in `complete_req`; it is posted once, or is that of the issuing task to post, or
was not polled. When there is one in `complete_req` that the issuing task is not about to collect,
the work or a wake-up is to come, so that every one has been posted when nothing is to come. -/
structure HandoffCorrect (s : HandoffState) : Prop where
  active : s.active.length ≤ 1
  kept : s.active ≠ [] → s.completeReq = none
  polled : ∀ r, s.polled.count r + s.completeReq.toList.count r = if r ∈ s.done then 1 else 0
  posted : ∀ r, s.posted.count r + s.issuer.prev.toList.count r = s.polled.count r
  pending : s.rwWait = false → s.completeReq ≠ none → s.issuer.aboutToCollect = false →
    s.CompletionPending
  settled : s.issuer = .out → ¬s.CompletionPending →
    ∀ r, s.posted.count r = if r ∈ s.done then 1 else 0

/-! ### One step -/

variable {s s' : HandoffState} {a : HandoffAction}

/-- What the issuing task relies on between two of its steps. While no request is active, nobody
else changes `rw_wait`. -/
def IssuerPc.Relies (s : HandoffState) : IssuerPc → Prop
  | .collect _ err => s.rwWait = false ∧ err = 0
  | .collected .. => s.rwWait = false ∧ s.completeReq = none
  | .marked .. => s.rwWait = true ∧ s.active = []
  | .called _ true | .ended true => s.active = []
  | _ => True

/-- The host has at most one request, which `rw_wait` stands for. -/
structure HostInv (s : HandoffState) : Prop where
  recovery : s.recoveryNeeded = false
  one : s.active.length ≤ 1
  idle : s.rwWait = false → s.active = []
  full : s.completeReq ≠ none → s.rwWait = false
  waits : s.waiting = s.issuer.waits
  relies : s.issuer.Relies s

theorem HostInv.active_eq (h : HostInv s) {r : ℕ} (hr : r ∈ s.active) : s.active = [r] := by
  have hlength : s.active.length = 1 := le_antisymm h.one (List.length_pos_of_mem hr)
  obtain ⟨r', hactive⟩ := List.length_eq_one_iff.mp hlength
  rw [hactive] at hr ⊢
  rw [List.mem_singleton.mp hr]

/-- While a request is active, `rw_wait` is set and there is none to complete. -/
theorem HostInv.of_active (h : HostInv s) (hne : s.active ≠ []) :
    s.rwWait = true ∧ s.completeReq = none := by
  have hrw : s.rwWait = true := by
    by_contra hfalse
    exact hne (h.idle (Bool.eq_false_of_not_eq_true hfalse))
  refine ⟨hrw, ?_⟩
  by_contra hfull
  rw [h.full hfull] at hrw
  cases hrw

/-- The section of `mmc_blk_mq_complete_prev_req`, whether or not there is a request to complete. -/
theorem completePrevReq_eq (s : HandoffState) (handOver : Bool) :
    s.completePrevReq handOver =
      { s with
        completeReq := none
        polled := s.completeReq.toList ++ s.polled
        posted := if handOver then s.posted else s.completeReq.toList ++ s.posted } := by
  obtain ⟨completeReq⟩ := s
  cases completeReq <;> cases handOver <;> rfl

/-- No recovery is needed on such a host, and so the condition is that `rw_wait` is false. -/
theorem HostInv.evalCond_eq (h : HostInv s) (job : Job) (wait : IssuerPc) :
    s.evalCond job wait =
      { s with waiting := s.rwWait, issuer := if s.rwWait then wait else .collect job 0 } := by
  rw [HandoffState.evalCond, mmcBlkRwWaitCond, h.recovery]
  cases s.rwWait <;> rfl

theorem HostInv.evalCond (h : HostInv s) (job : Job) {wait : IssuerPc} (hwait : wait.waits = true)
    (hrelies : ∀ s, wait.Relies s) : HostInv (s.evalCond job wait) := by
  rw [h.evalCond_eq]
  refine ⟨h.recovery, h.one, h.idle, h.full, ?_, ?_⟩
  · show s.rwWait = (if s.rwWait then wait else .collect job 0).waits
    cases s.rwWait with
    | true => exact hwait.symm
    | false => rfl
  · show (if s.rwWait then wait else .collect job 0).Relies _
    cases s.rwWait with
    | true => exact hrelies _
    | false => exact ⟨rfl, rfl⟩

/-- What the task relies on, when another one takes a step that neither clears `rw_wait` nor fills
`complete_req`. -/
theorem IssuerPc.Relies.mono {pc : IssuerPc} (h : pc.Relies s) (hrw : s'.rwWait = s.rwWait)
    (hactive : s'.active = s.active) (hreq : s.completeReq = none → s'.completeReq = none) :
    pc.Relies s' := by
  cases pc with
  | collect job err => exact ⟨hrw.trans h.1, h.2⟩
  | collected r prev => exact ⟨hrw.trans h.1, hreq h.2⟩
  | marked r prev => exact ⟨hrw.trans h.1, hactive.trans h.2⟩
  | called prev err =>
    cases err with
    | true => exact hactive.trans h
    | false => trivial
  | ended err =>
    cases err with
    | true => exact hactive.trans h
    | false => trivial
  | _ => trivial

/-- The end of the active request takes nothing away that the task relies on. -/
theorem HostInv.relies_of_active (h : HostInv s) (hne : s.active ≠ []) (hnil : s'.active = []) :
    s.issuer.Relies s' := by
  have hrelies := h.relies
  have hrw : s.rwWait ≠ false := by
    rw [(h.of_active hne).1]
    exact Bool.noConfusion
  cases hpc : s.issuer with
  | collect job err =>
    rw [hpc] at hrelies
    exact absurd hrelies.1 hrw
  | collected r prev =>
    rw [hpc] at hrelies
    exact absurd hrelies.1 hrw
  | marked r prev =>
    rw [hpc] at hrelies
    exact absurd hrelies.2 hne
  | called prev err =>
    cases err with
    | true => exact hnil
    | false => trivial
  | ended err =>
    cases err with
    | true => exact hnil
    | false => trivial
  | out | check | prepare | recheck | sleeping => trivial

theorem HostInv.next (h : HostInv s) (hnext : s.next a = some s') : HostInv s' := by
  obtain ⟨hen, rfl⟩ := HandoffState.next_eq_some.mp hnext
  have hwaits := h.waits
  have hrelies := h.relies
  cases a with
  | issueRw | issueSync =>
    rw [show s.issuer = .out from hen] at hwaits
    exact ⟨h.recovery, h.one, h.idle, h.full, hwaits, trivial⟩
  | check job => exact h.evalCond job rfl fun _ => trivial
  | recheck job => exact h.evalCond job rfl fun _ => trivial
  | prepare job =>
    rw [show s.issuer = .prepare job from hen] at hwaits
    exact ⟨h.recovery, h.one, h.idle, h.full, hwaits, trivial⟩
  | resume job =>
    rw [show s.issuer = .sleeping job from hen.1] at hwaits
    exact ⟨h.recovery, h.one, h.idle, h.full, hwaits, trivial⟩
  | collect job err =>
    rw [show s.issuer = .collect job err from hen] at hwaits hrelies
    obtain ⟨hrw, rfl⟩ : s.rwWait = false ∧ err = 0 := hrelies
    cases job with
    | rw r =>
      rw [HandoffState.after, completePrevReq_eq]
      exact ⟨h.recovery, h.one, h.idle, fun hne => absurd rfl hne, hwaits, hrw, rfl⟩
    | sync =>
      rw [HandoffState.after, completePrevReq_eq]
      exact ⟨h.recovery, h.one, h.idle, fun hne => absurd rfl hne, hwaits, trivial⟩
  | mark r prev =>
    rw [show s.issuer = .collected r prev from hen] at hwaits hrelies
    obtain ⟨hrw, hreq⟩ : s.rwWait = false ∧ s.completeReq = none := hrelies
    exact ⟨h.recovery, h.one, nofun, fun hne => absurd hreq hne, hwaits, rfl, h.idle hrw⟩
  | start r prev err =>
    rw [show s.issuer = .marked r prev from hen] at hwaits hrelies
    obtain ⟨hrw, hactive⟩ : s.rwWait = true ∧ s.active = [] := hrelies
    have hidle : s.rwWait = false → (s.after (.start r prev err)).active = [] :=
      fun hfalse => by rw [hrw] at hfalse; cases hfalse
    cases err with
    | true => exact ⟨h.recovery, h.one, hidle, h.full, hwaits, hactive⟩
    | false =>
      refine ⟨h.recovery, ?_, hidle, h.full, hwaits, trivial⟩
      show (r :: s.active).length ≤ 1
      rw [hactive]
      exact le_rfl
  | post prev err =>
    rw [show s.issuer = .called prev err from hen] at hwaits hrelies
    refine ⟨h.recovery, h.one, h.idle, h.full, hwaits, ?_⟩
    cases err with
    | true => exact hrelies
    | false => trivial
  | finish err =>
    rw [show s.issuer = .ended err from hen] at hwaits hrelies
    cases err with
    | true => exact ⟨h.recovery, h.one, fun _ => hrelies, fun _ => rfl, hwaits, trivial⟩
    | false => exact ⟨h.recovery, h.one, h.idle, h.full, hwaits, trivial⟩
  | reqDone r =>
    have hactive : s.active = [r] := h.active_eq hen
    have hne : s.active ≠ [] := hactive ▸ List.cons_ne_nil _ _
    have hnil : s.active.erase r = [] := by rw [hactive, List.erase_cons_head]
    refine ⟨h.recovery, ?_, fun _ => hnil, fun _ => rfl, hwaits, ?_⟩
    · show (s.active.erase r).length ≤ 1
      rw [hnil]
      exact Nat.zero_le _
    · exact h.relies_of_active hne hnil
  | wakeUp | scheduleWork | runWork =>
    exact ⟨h.recovery, h.one, h.idle, h.full, hwaits, hrelies.mono rfl rfl id⟩
  | completeWork =>
    rw [HandoffState.after, completePrevReq_eq]
    exact ⟨h.recovery, h.one, h.idle, fun hne => absurd rfl hne, hwaits,
      hrelies.mono rfl rfl fun _ => rfl⟩

/-- The requests of all calls so far: the one to be started, the active one, and those whose
callback ran. -/
def HandoffState.requests (s : HandoffState) : List ℕ :=
  s.issuer.fresh.toList ++ s.active ++ s.done

/-- Calls have different requests, and no request is lost between its callback and its post. -/
structure BooksInv (s : HandoffState) : Prop where
  nodup : s.requests.Nodup
  lt : ∀ r ∈ s.requests, r < s.issued
  polled : s.done.Perm (s.completeReq.toList ++ s.polled)
  posted : s.polled.Perm (s.issuer.prev.toList ++ s.posted)

/-- A step that keeps the requests and the books. -/
theorem BooksInv.of_same (h : BooksInv s) (hsub : s'.requests.Sublist s.requests)
    (hissued : s'.issued = s.issued) (hdone : s'.done = s.done)
    (hpolled : s'.completeReq.toList ++ s'.polled = s.completeReq.toList ++ s.polled)
    (hposted : s.polled.Perm (s.issuer.prev.toList ++ s.posted) →
      s'.polled.Perm (s'.issuer.prev.toList ++ s'.posted)) : BooksInv s' where
  nodup := h.nodup.sublist hsub
  lt r hr := by
    rw [hissued]
    exact h.lt r (hsub.subset hr)
  polled := by
    rw [hdone, hpolled]
    exact h.polled
  posted := hposted h.posted

theorem requests_of {pc : IssuerPc} (hpc : s.issuer = pc) :
    s.requests = pc.fresh.toList ++ s.active ++ s.done := by
  rw [HandoffState.requests, hpc]

theorem prev_of {pc : IssuerPc} (hpc : s.issuer = pc) (h : BooksInv s) :
    s.polled.Perm (pc.prev.toList ++ s.posted) :=
  hpc ▸ h.posted

/-- A step of the issuing task alone. -/
theorem BooksInv.move (h : BooksInv s) {pc pc' : IssuerPc} (hpc : s.issuer = pc)
    (hpc' : s'.issuer = pc') (hfresh : pc'.fresh = pc.fresh) (hprev : pc'.prev = pc.prev)
    (hsame : s'.issued = s.issued ∧ s'.active = s.active ∧ s'.done = s.done ∧
      s'.completeReq = s.completeReq ∧ s'.polled = s.polled ∧ s'.posted = s.posted) :
    BooksInv s' := by
  obtain ⟨hissued, hactive, hdone, hreq, hpolled, hposted⟩ := hsame
  refine h.of_same ?_ hissued hdone (by rw [hreq, hpolled]) fun hperm => ?_
  · rw [requests_of hpc', requests_of hpc, hfresh, hactive, hdone]
  · rw [hpolled, hposted, hpc', hprev, ← hpc]
    exact hperm

/-- An evaluation of the condition. -/
theorem BooksInv.evalCond (hhost : HostInv s) (h : BooksInv s) {job : Job} {pc wait : IssuerPc}
    (hpc : s.issuer = pc) (hfresh : pc.fresh = job.req ∧ wait.fresh = job.req)
    (hprev : pc.prev = none ∧ wait.prev = none) : BooksInv (s.evalCond job wait) := by
  rw [hhost.evalCond_eq]
  refine h.move hpc rfl ?_ ?_ ⟨rfl, rfl, rfl, rfl, rfl, rfl⟩
  · rw [hfresh.1]
    cases s.rwWait with
    | true => exact hfresh.2
    | false => rfl
  · rw [hprev.1]
    cases s.rwWait with
    | true => exact hprev.2
    | false => rfl

theorem BooksInv.next (hhost : HostInv s) (h : BooksInv s) (hnext : s.next a = some s') :
    BooksInv s' := by
  obtain ⟨hen, rfl⟩ := HandoffState.next_eq_some.mp hnext
  cases a with
  | issueRw =>
    have hpc : s.issuer = .out := hen
    have hrequests : s.requests = [] ++ s.active ++ s.done := requests_of hpc
    have hlt := h.lt
    have hnodup := h.nodup
    have hperm := prev_of hpc h
    rw [hrequests] at hlt hnodup
    refine ⟨List.nodup_cons.mpr ⟨fun hmem => lt_irrefl _ (hlt _ hmem), hnodup⟩, fun r hr => ?_,
      h.polled, hperm⟩
    rcases List.mem_cons.mp hr with rfl | hmem
    · exact Nat.lt_succ_self _
    · exact Nat.lt_succ_of_lt (hlt r hmem)
  | issueSync => exact h.move hen rfl rfl rfl ⟨rfl, rfl, rfl, rfl, rfl, rfl⟩
  | check job => exact h.evalCond hhost hen ⟨rfl, rfl⟩ ⟨rfl, rfl⟩
  | recheck job => exact h.evalCond hhost hen ⟨rfl, rfl⟩ ⟨rfl, rfl⟩
  | prepare job => exact h.move hen rfl rfl rfl ⟨rfl, rfl, rfl, rfl, rfl, rfl⟩
  | resume job => exact h.move hen.1 rfl rfl rfl ⟨rfl, rfl, rfl, rfl, rfl, rfl⟩
  | collect job err =>
    have hpc : s.issuer = .collect job err := hen
    obtain rfl : err = 0 := by
      have hrelies := hhost.relies
      rw [hpc] at hrelies
      exact hrelies.2
    cases job with
    | rw | sync =>
      rw [HandoffState.after, completePrevReq_eq]
      refine h.of_same ?_ rfl rfl rfl fun _ => ?_
      · rw [requests_of hpc]
        exact List.Sublist.refl _
      · exact (prev_of hpc h).append_left _
  | mark r prev => exact h.move hen rfl rfl rfl ⟨rfl, rfl, rfl, rfl, rfl, rfl⟩
  | start r prev err =>
    have hpc : s.issuer = .marked r prev := hen
    have hperm := prev_of hpc h
    refine h.of_same ?_ rfl rfl rfl fun _ => hperm
    have hrequests : s.requests = r :: (s.active ++ s.done) := requests_of hpc
    rw [hrequests]
    cases err with
    | true => exact List.sublist_cons_self r _
    | false => exact List.Sublist.refl _
  | post prev err =>
    have hpc : s.issuer = .called prev err := hen
    have hperm := prev_of hpc h
    refine h.of_same ?_ rfl rfl rfl fun _ => hperm
    rw [requests_of hpc]
    exact List.Sublist.refl _
  | finish err => exact h.move hen rfl rfl rfl ⟨rfl, rfl, rfl, rfl, rfl, rfl⟩
  | reqDone r =>
    have hactive : s.active = [r] := hhost.active_eq hen
    have hreq : s.completeReq = none := (hhost.of_active (hactive ▸ List.cons_ne_nil _ _)).2
    have hrequests : (s.after (.reqDone r)).requests = s.requests := by
      show s.issuer.fresh.toList ++ s.active.erase r ++ r :: s.done =
        s.issuer.fresh.toList ++ s.active ++ s.done
      rw [hactive, List.erase_cons_head]
      simp
    refine ⟨hrequests ▸ h.nodup, fun r' hr' => h.lt r' (hrequests ▸ hr'), ?_, h.posted⟩
    have hpolled := h.polled
    rw [hreq] at hpolled
    exact hpolled.cons r
  | wakeUp | scheduleWork | runWork => exact h.move rfl rfl rfl rfl ⟨rfl, rfl, rfl, rfl, rfl, rfl⟩
  | completeWork =>
    rw [HandoffState.after, completePrevReq_eq]
    refine h.of_same (List.Sublist.refl _) rfl rfl rfl fun hperm => ?_
    exact ((hperm.append_left _).trans (List.perm_append_comm_assoc ..))

/-- Whatever is in `complete_req` will be collected. -/
def PendingInv (s : HandoffState) : Prop :=
  s.completeReq ≠ none → s.issuer.aboutToCollect = true ∨ s.CompletionPending

/-- Where the task neither collects by itself nor sleeps, the work will. -/
theorem PendingInv.work (h : PendingInv s) (hreq : s.completeReq ≠ none) {pc : IssuerPc}
    (hpc : s.issuer = pc) (hcollect : pc.aboutToCollect = false) (hasleep : pc.asleep = false) :
    s.workQueued = true ∨ s.workRunning = true ∨ 0 < s.scheds := by
  rcases h hreq with habout | hqueued | hrunning | hscheds | ⟨hsleeps, -⟩
  · rw [hpc, hcollect] at habout
    cases habout
  · exact .inl hqueued
  · exact .inr (.inl hrunning)
  · exact .inr (.inr hscheds)
  · rw [hpc, hasleep] at hsleeps
    cases hsleeps

theorem HandoffState.CompletionPending.of_work
    (h : s.workQueued = true ∨ s.workRunning = true ∨ 0 < s.scheds) : s.CompletionPending := by
  rcases h with h | h | h
  · exact .inl h
  · exact .inr (.inl h)
  · exact .inr (.inr (.inl h))

theorem PendingInv.next (hhost : HostInv s) (h : PendingInv s) (hnext : s.next a = some s') :
    PendingInv s' := by
  obtain ⟨hen, rfl⟩ := HandoffState.next_eq_some.mp hnext
  intro hreq
  cases a with
  | issueRw | issueSync => exact .inl rfl
  | check job =>
    left
    rw [HandoffState.after, hhost.evalCond_eq]
    cases s.rwWait <;> rfl
  | recheck job =>
    -- the condition is true, since there is a request to complete
    left
    have hrw : s.rwWait = false := by
      refine hhost.full fun hnone => hreq ?_
      rw [HandoffState.after, hhost.evalCond_eq]
      exact hnone
    rw [HandoffState.after, hhost.evalCond_eq, hrw]
    rfl
  | prepare job => exact .inl rfl
  | resume job => exact .inl rfl
  | collect job err =>
    refine absurd ?_ hreq
    cases job <;> rw [HandoffState.after, completePrevReq_eq]
  | mark r prev =>
    have hrelies := hhost.relies
    rw [show s.issuer = .collected r prev from hen] at hrelies
    exact absurd hrelies.2 hreq
  | start r prev err =>
    have hrelies := hhost.relies
    rw [show s.issuer = .marked r prev from hen] at hrelies
    exact absurd ((hhost.full hreq).symm.trans hrelies.1) nofun
  | post prev err => exact .inr (.of_work (h.work hreq hen rfl rfl))
  | finish err => exact .inr (.of_work (h.work hreq hen rfl rfl))
  | reqDone r =>
    have hwaits := hhost.waits
    cases hwaiting : s.waiting with
    | false =>
      refine .inr (.of_work (.inr (.inr ?_)))
      show 0 < if s.waiting then s.scheds else s.scheds + 1
      rw [hwaiting]
      exact Nat.succ_pos _
    | true =>
      rw [hwaiting] at hwaits
      show s.issuer.aboutToCollect = true ∨ _
      cases hpc : s.issuer with
      | prepare | recheck => exact .inl rfl
      | sleeping job =>
        refine .inr (.inr (.inr (.inr ⟨congrArg IssuerPc.asleep hpc, .inr ?_⟩)))
        show 0 < if s.waiting then s.wakes + 1 else s.wakes
        rw [hwaiting]
        exact Nat.succ_pos _
      | out | check | collect | collected | marked | called | ended =>
        rw [hpc] at hwaits
        cases hwaits
  | wakeUp =>
    rcases h hreq with habout | hqueued | hrunning | hscheds | ⟨hsleeps, -⟩
    · exact .inl habout
    · exact .inr (.inl hqueued)
    · exact .inr (.inr (.inl hrunning))
    · exact .inr (.inr (.inr (.inl hscheds)))
    · -- a task that sleeps is in the wait queue
      refine .inr (.inr (.inr (.inr ⟨hsleeps, .inl ?_⟩)))
      show (s.woken || s.issuer.onQueue) = true
      cases hpc : s.issuer with
      | sleeping job => exact Bool.or_true _
      | out | check | prepare | recheck | collect | collected | marked | called | ended =>
        rw [hpc] at hsleeps
        cases hsleeps
  | scheduleWork => exact .inr (.inl rfl)
  | runWork => exact .inr (.inr (.inl rfl))
  | completeWork =>
    refine absurd ?_ hreq
    rw [HandoffState.after, completePrevReq_eq]

/-! ### Runs -/

/-- The invariant of the hand-over. -/
structure HandoffInv (s : HandoffState) : Prop where
  host : HostInv s
  books : BooksInv s
  pending : PendingInv s

theorem handoffInv_init : HandoffInv handoffSystem.init where
  host := ⟨rfl, Nat.zero_le _, fun _ => rfl, fun _ => rfl, rfl, trivial⟩
  books := ⟨List.nodup_nil, nofun, List.Perm.refl _, List.Perm.refl _⟩
  pending := fun hne => absurd rfl hne

theorem HandoffInv.next (h : HandoffInv s) (hnext : s.next a = some s') : HandoffInv s' where
  host := h.host.next hnext
  books := h.books.next h.host hnext
  pending := h.pending.next h.host hnext

theorem HandoffInv.correct (h : HandoffInv s) : HandoffCorrect s := by
  have hcount : ∀ r, s.polled.count r + s.completeReq.toList.count r =
      if r ∈ s.done then 1 else 0 := by
    intro r
    have hnodup : s.done.Nodup := (List.nodup_append.mp h.books.nodup).2.1
    rw [← hnodup.count, h.books.polled.count_eq, List.count_append, Nat.add_comm]
  have hposted : ∀ r, s.posted.count r + s.issuer.prev.toList.count r = s.polled.count r := by
    intro r
    rw [h.books.posted.count_eq, List.count_append, Nat.add_comm]
  refine ⟨h.host.one, fun hne => (h.host.of_active hne).2, hcount, hposted, ?_, ?_⟩
  · intro _ hreq hcollect
    exact (h.pending hreq).resolve_left fun htrue => by rw [hcollect] at htrue; cases htrue
  · intro hout hnone r
    have hreq : s.completeReq = none := by
      by_contra hne
      exact hnone (.of_work (h.pending.work hne hout rfl rfl))
    have hpolled := hcount r
    have hpost := hposted r
    rw [hreq] at hpolled
    rw [hout] at hpost
    exact hpost.trans hpolled

/-- **Handing over completed requests.** However the steps of the issuing task, of the callbacks and
of the work fall, the hand-over is correct. -/
theorem handoff_correct {s : HandoffState} (hs : handoffSystem.Reachable s) : HandoffCorrect s :=
  (handoffSystem.invariant handoffInv_init (fun _ _ _ h => h.next) hs).correct

/-- A request is done before the next call waits for it, which collects it before the work. -/
theorem handoff_correct_sample :
    HandoffCorrect ((handoffSystem.run [.issueRw, .check (.rw 0), .collect (.rw 0) 0, .mark 0 none,
      .start 0 none false, .post none false, .finish false, .issueRw, .reqDone 0, .check (.rw 1),
      .scheduleWork, .collect (.rw 1) 0, .runWork, .completeWork, .mark 1 (some 0)]).get
        (by decide)) :=
  handoff_correct ⟨_, (Option.some_get _).symm⟩

end LinuxDriver.Mmc
