import LinuxDriver.Lts
import LinuxDriver.ReentrantLock

/-!
# Requests in flight

`mmc_mq_queue_rq` counts a request under `queue_lock` before it issues it, and takes the card when
it is the first one. The completion of a started request, or the end of a call that did not start
its request, takes it off the count and puts the card when it was the last one. The card is taken
and put after the lock has been dropped, so the two may cross; what is nested then is the claim of
the queue on the host, which is a re-entrant lock.

A call of `mmc_mq_queue_rq` remembers the issue type of its request. A completion asks for it again,
when the request may have been ended and its structure used for another one. And a request that has
been started may complete before `mmc_blk_mq_issue_rq` has returned, which then has the host no
more.

## Main definitions

* `IssueType`, `mmcIssueType`, `mmcCqeCheckBusy`, `mmcTotInFlight`.
* `Dispatch`, `Flight`: calls of `mmc_mq_queue_rq`, and requests that were started.
* `inFlightSystem`: calls, completions, recovery, and other users of the host.
* `InFlightCorrect`: the counters, the calls for the card, and the claim on the host.
* `KeepsInFlight`: the condition on a step.

## Main results

* `inFlightCorrect_next_iff`: which steps keep the accounting correct.
* `always_inFlightCorrect_iff`: which runs do.
-/

namespace LinuxDriver.Mmc

/-! ### Issue types -/

/-- `req_op` of a request. -/
inductive ReqOp
  | read
  | write
  | flush
  | discard
  | secureErase
  | drvIn
  | drvOut
  | other
  deriving DecidableEq

/-- `enum mmc_issue_type` -/
inductive IssueType
  | sync
  | dcmd
  | async
  deriving DecidableEq

/-- `mq->use_cqe`, and `mmc_cqe_can_dcmd` of the host. -/
structure QueueConfig where
  useCqe : Bool
  canDcmd : Bool

/-- `mmc_cqe_issue_type` -/
def mmcCqeIssueType (q : QueueConfig) : ReqOp → IssueType
  | .drvIn | .drvOut | .discard | .secureErase => .sync
  | .flush => if q.canDcmd then .dcmd else .sync
  | _ => .async

/-- `mmc_issue_type` -/
def mmcIssueType (q : QueueConfig) (op : ReqOp) : IssueType :=
  if q.useCqe then mmcCqeIssueType q op
  else if op = .read ∨ op = .write then .async
  else .sync

/-- `mmc_tot_in_flight` -/
def mmcTotInFlight (inFlight : IssueType → ℤ) : ℤ :=
  inFlight .sync + inFlight .dcmd + inFlight .async

/-- The bits `MMC_CQE_DCMD_BUSY` and `MMC_CQE_QUEUE_FULL` of `mq->cqe_busy`. -/
structure CqeBusy where
  dcmd : Bool
  full : Bool
  deriving DecidableEq

/-- `mmc_cqe_check_busy` -/
def mmcCqeCheckBusy (inFlight : IssueType → ℤ) (b : CqeBusy) : CqeBusy :=
  ⟨b.dcmd && inFlight .dcmd ≠ 0, false⟩

/-! ### Calls and requests -/

/-- `enum mmc_issued` -/
inductive Issued
  | busy
  | failedToStart
  | finished
  | started
  deriving DecidableEq

/-- Where a call of `mmc_mq_queue_rq` is after its first critical section: before `mmc_get_card`, in
`mmc_blk_mq_issue_rq` before and after the request was started, and after that. -/
inductive DispatchPc
  | getting
  | issuing
  | started
  | returned (issued : Issued)
  deriving DecidableEq

namespace DispatchPc

/-- The request is counted for the call: it has not been started. -/
def counts : DispatchPc → Bool
  | .getting | .issuing => true
  | .started => false
  | .returned issued => issued ≠ .started

/-- The call is in `mmc_blk_mq_issue_rq`. -/
def executing : DispatchPc → Bool
  | .issuing | .started => true
  | _ => false

end DispatchPc

/-- A call of `mmc_mq_queue_rq`: its request, and the issue type that it remembers. -/
structure Dispatch (ρ : Type*) where
  req : ρ
  type : IssueType
  pc : DispatchPc
  deriving DecidableEq

/-- A request that was started and not accounted for since: the issue type with which it was
dispatched, and whether the block layer has ended or requeued it. -/
structure Flight (ρ : Type*) where
  req : ρ
  type : IssueType
  ended : Bool
  deriving DecidableEq

/-- A request structure is not in use, waits for its dispatch, or belongs to the driver. -/
inductive ReqPhase
  | free
  | queued
  | owned
  deriving DecidableEq

/-- Who claims the host: the context of the queue, or someone else. -/
inductive HostUser (κ : Type*)
  | queue
  | other (u : κ)
  deriving DecidableEq

/-! ### The queue -/

/-- The queue, the request structures by their operation and phase, the calls of
`mmc_mq_queue_rq` in progress, the started requests not accounted for, those accounted for before
they were ended, the claim on the host, the puts of the card that are to come, and the calls of
`mmc_get_card` and `mmc_put_card` so far. -/
structure InFlightState (ρ κ : Type*) where
  op : ρ → ReqOp
  phase : ρ → ReqPhase
  inFlight : IssueType → ℤ
  busy : Bool
  cqeBusy : CqeBusy
  recoveryNeeded : Bool
  recoveryWork : Bool
  recovering : Bool
  dispatches : List (Dispatch ρ)
  flights : List (Flight ρ)
  ending : List ρ
  host : ReentrantLock (HostUser κ)
  owedPuts : ℕ
  gets : ℕ
  puts : ℕ

/-- The block layer allocates a request or the driver rejects one because the card was removed; the
steps of `mmc_mq_queue_rq`; the end of a request and its accounting, in any order where the block
layer may complete it elsewhere; a put of the card; the recovery; and the other users of the
host. -/
inductive InFlightAction (ρ κ : Type*)
  | alloc (r : ρ) (op : ReqOp)
  | reject (r : ρ)
  | dispatch (r : ρ)
  | getCard (d : Dispatch ρ)
  | start (d : Dispatch ρ)
  | issueReturn (d : Dispatch ρ) (issued : Issued)
  | finish (d : Dispatch ρ)
  | endRq (f : Flight ρ) (requeue : Bool)
  | account (f : Flight ρ)
  | endLate (r : ρ) (requeue : Bool)
  | putCard
  | notifyRecovery
  | recoveryGet
  | recoveryDone
  | claim (u : κ)
  | unclaim

section System

variable {ρ κ : Type*} [DecidableEq ρ] [DecidableEq κ]

namespace InFlightState

variable (q : QueueConfig) (s : InFlightState ρ κ)

/-- Replaces a call by the same call further on. -/
def moveTo (d : Dispatch ρ) (pc : DispatchPc) : InFlightState ρ κ :=
  { s with dispatches := { d with pc := pc } :: s.dispatches.erase d }

def setPhase (r : ρ) (p : ReqPhase) : InFlightState ρ κ :=
  { s with phase := Function.update s.phase r p }

/-- The first critical section of `mmc_mq_queue_rq`. A request that is refused stays queued. -/
def dispatchSection (r : ρ) : InFlightState ρ κ :=
  let type := mmcIssueType q (s.op r)
  if s.recoveryNeeded ∨ s.busy then s
  else if type = .dcmd ∧ s.inFlight .dcmd ≠ 0 then
    { s with cqeBusy := { s.cqeBusy with dcmd := true } }
  else
    let inFlight := Function.update s.inFlight type (s.inFlight type + 1)
    let getCard : Bool := mmcTotInFlight inFlight = 1
    { s.setPhase r .owned with
      busy := true
      inFlight := inFlight
      dispatches := ⟨r, type, if getCard then .getting else .issuing⟩ :: s.dispatches }

/-- Takes one off a counter, and owes a put of the card if it was the last. -/
def decInFlight (type : IssueType) : InFlightState ρ κ :=
  let inFlight := Function.update s.inFlight type (s.inFlight type - 1)
  { s with
    inFlight := inFlight
    owedPuts := if mmcTotInFlight inFlight = 0 then s.owedPuts + 1 else s.owedPuts }

/-- The end of `mmc_mq_queue_rq`. A request that the card was too busy for is queued again, and one
that failed is ended by the block layer. -/
def finishDispatch (d : Dispatch ρ) (issued : Issued) : InFlightState ρ κ :=
  let s := { s with busy := false, dispatches := s.dispatches.erase d }
  match issued with
  | .started => s
  | .busy => (s.decInFlight d.type).setPhase d.req .queued
  | .failedToStart => (s.decInFlight d.type).setPhase d.req .free
  | .finished => s.decInFlight d.type

/-- The critical section of `mmc_blk_mq_dec_in_flight`, or of `mmc_blk_cqe_complete_rq`. -/
def accountFor (f : Flight ρ) : InFlightState ρ κ :=
  let s' := s.decInFlight (mmcIssueType q (s.op f.req))
  { s' with
    cqeBusy := if q.useCqe then mmcCqeCheckBusy s'.inFlight s'.cqeBusy else s'.cqeBusy
    flights := s.flights.erase f
    ending := if f.ended then s.ending else f.req :: s.ending }

/-- Claims the host for the queue. -/
def getCard : Option (InFlightState ρ κ) :=
  (s.host.acquire .queue).map fun host => { s with host := host, gets := s.gets + 1 }

/-- The block layer ends or requeues a request. -/
def endRq (r : ρ) (requeue : Bool) : InFlightState ρ κ :=
  s.setPhase r (if requeue then .queued else .free)

def next : InFlightAction ρ κ → Option (InFlightState ρ κ)
  | .alloc r op =>
    if s.phase r = .free then
      some { s.setPhase r .queued with op := Function.update s.op r op }
    else none
  | .reject r => if s.phase r = .queued then some (s.setPhase r .free) else none
  | .dispatch r => if s.phase r = .queued then some (s.dispatchSection q r) else none
  | .getCard d =>
    if d ∈ s.dispatches ∧ d.pc = .getting then (s.moveTo d .issuing).getCard else none
  | .start d =>
    if d ∈ s.dispatches ∧ d.pc = .issuing then
      some { s.moveTo d .started with flights := ⟨d.req, d.type, false⟩ :: s.flights }
    else none
  | .issueReturn d issued =>
    if d ∈ s.dispatches ∧ d.pc = (if issued = .started then .started else .issuing) then
      let s := s.moveTo d (.returned issued)
      some (if issued = .finished then s.setPhase d.req .free else s)
    else none
  | .finish d =>
    match d.pc with
    | .returned issued => if d ∈ s.dispatches then some (s.finishDispatch d issued) else none
    | _ => none
  | .endRq f requeue =>
    if f ∈ s.flights ∧ f.ended = false then
      some { s.endRq f.req requeue with flights := { f with ended := true } :: s.flights.erase f }
    else none
  | .account f =>
    -- a completion of the command queue ends its request before
    if f ∈ s.flights ∧ (q.useCqe → f.ended) then some (s.accountFor q f) else none
  | .endLate r requeue =>
    if r ∈ s.ending then some { s.endRq r requeue with ending := s.ending.erase r } else none
  | .putCard =>
    if 0 < s.owedPuts then
      some { s with host := s.host.release, owedPuts := s.owedPuts - 1, puts := s.puts + 1 }
    else none
  | .notifyRecovery => some { s with recoveryNeeded := true, recoveryWork := true }
  | .recoveryGet =>
    if s.recoveryWork ∧ s.recovering = false then
      { s with recoveryWork := false, recovering := true }.getCard
    else none
  | .recoveryDone =>
    if s.recovering then
      some { s with recoveryNeeded := false, recovering := false, owedPuts := s.owedPuts + 1 }
    else none
  | .claim u => (s.host.acquire (.other u)).map fun host => { s with host := host }
  | .unclaim =>
    match s.host.owner with
    | some (.other _) => some { s with host := s.host.release }
    | _ => none

end InFlightState

/-- A queue with nothing in it, on a host that nobody claims. -/
def inFlightSystem (q : QueueConfig) (ρ κ : Type*) [DecidableEq ρ] [DecidableEq κ] :
    Lts (InFlightState ρ κ) (InFlightAction ρ κ) where
  init := ⟨fun _ => .other, fun _ => .free, fun _ => 0, false, ⟨false, false⟩, false, false, false,
    [], [], [], .free, 0, 0, 0⟩
  next := InFlightState.next q

namespace InFlightState

variable (s : InFlightState ρ κ)

/-- The issue types of the requests that are dispatched and neither completed nor failed: those
that a call has not started, and those that were started. -/
def contributions : List IssueType :=
  ((s.dispatches.filter fun d => d.pc.counts).map Dispatch.type) ++ s.flights.map Flight.type

/-- The calls that are to take the card. -/
def owedGets : ℕ := s.dispatches.countP fun d => d.pc = .getting

/-- A call is in `mmc_blk_mq_issue_rq`. -/
def Executing : Prop := ∃ d ∈ s.dispatches, d.pc.executing = true

instance : Decidable s.Executing := inferInstanceAs (Decidable (∃ d ∈ s.dispatches, _))

end InFlightState

/-- **Correct accounting.** No counter is negative, and each is the number of its requests; at most
one direct command is in flight; the card is taken as often as it is put and once more while a
request is in flight, and once more during a recovery, counting the calls to come; and the queue
has claimed the host while `mmc_blk_mq_issue_rq` is executing or a started request is not
completed. -/
structure InFlightCorrect (s : InFlightState ρ κ) : Prop where
  nonneg : ∀ type, 0 ≤ s.inFlight type
  counted : ∀ type, s.inFlight type = s.contributions.count type
  dcmd : s.inFlight .dcmd ≤ 1
  balanced : s.gets + s.owedGets =
    s.puts + s.owedPuts + (if mmcTotInFlight s.inFlight = 0 then 0 else 1) + s.recovering.toNat
  claimed : s.Executing ∨ s.flights ≠ [] → s.host.owner = some .queue

/-- The structure of a completed request must not be in use for a request of another issue type when
the request is accounted for, and the last put of the card must not come while
`mmc_blk_mq_issue_rq` is executing. -/
def KeepsInFlight (q : QueueConfig) (s : InFlightState ρ κ) : InFlightAction ρ κ → Prop
  | .account f => mmcIssueType q (s.op f.req) = f.type
  | .putCard => s.Executing → 1 < s.host.depth
  | _ => True

instance (q : QueueConfig) (s : InFlightState ρ κ) (a : InFlightAction ρ κ) :
    Decidable (KeepsInFlight q s a) :=
  match a with
  | .account f => inferInstanceAs (Decidable (mmcIssueType q (s.op f.req) = f.type))
  | .putCard => inferInstanceAs (Decidable (s.Executing → 1 < s.host.depth))
  | .alloc .. | .reject _ | .dispatch _ | .getCard _ | .start _ | .issueReturn .. | .finish _
  | .endRq .. | .endLate .. | .notifyRecovery | .recoveryGet | .recoveryDone | .claim _
  | .unclaim => isTrue trivial

/-! ### Counting -/

/-- Every issue type is one of the three that are added up. -/
theorem count_issueTypes (l : List IssueType) :
    l.count .sync + l.count .dcmd + l.count .async = l.length := by
  induction l with
  | nil => rfl
  | cons t l ih =>
    rw [List.length_cons]
    cases t <;> simp only [List.count_cons, beq_iff_eq, reduceCtorEq, if_true, if_false] <;> omega

/-- The counters count the types of a list. -/
def Counts (inFlight : IssueType → ℤ) (l : List IssueType) : Prop :=
  ∀ type, inFlight type = l.count type

variable {inFlight : IssueType → ℤ} {l l' : List IssueType} {t t' : IssueType}

theorem Counts.tot (h : Counts inFlight l) : mmcTotInFlight inFlight = l.length := by
  rw [mmcTotInFlight, h, h, h, ← count_issueTypes l]
  push_cast
  rfl

theorem Counts.tot_eq_zero (h : Counts inFlight l) : mmcTotInFlight inFlight = 0 ↔ l = [] := by
  rw [h.tot, Int.natCast_eq_zero, List.length_eq_zero_iff]

theorem Counts.perm (h : Counts inFlight l) (hperm : l.Perm l') : Counts inFlight l' :=
  fun type => by rw [h type, hperm.count_eq]

theorem Counts.inc (h : Counts inFlight l) (t : IssueType) :
    Counts (Function.update inFlight t (inFlight t + 1)) (t :: l) := by
  intro type
  by_cases ht : type = t
  · subst ht
    rw [Function.update_self, h, List.count_cons_self]
    push_cast
    rfl
  · rw [Function.update_of_ne ht, h, List.count_cons_of_ne (Ne.symm ht)]

/-- Taking one off a counter is right exactly when it is the counter of the type that leaves. -/
theorem counts_dec_iff (h : Counts inFlight (t :: l)) :
    Counts (Function.update inFlight t' (inFlight t' - 1)) l ↔ t' = t := by
  constructor
  · intro h'
    by_contra hne
    have := h' t'
    rw [Function.update_self, h, List.count_cons_of_ne (Ne.symm hne)] at this
    omega
  · rintro rfl type
    by_cases ht : type = t'
    · subst ht
      rw [Function.update_self, h, List.count_cons_self]
      push_cast
      ring
    · rw [Function.update_of_ne ht, h, List.count_cons_of_ne (Ne.symm ht)]

/-! ### One step -/

variable {q : QueueConfig} {s s' : InFlightState ρ κ} {d : Dispatch ρ}

/-- There is at most one call past its first critical section, and `busy` says so; the claims of the
queue on the host are the calls that it made for the card; and a call that is to take the card has
the only request in flight. -/
structure InFlightAux (s : InFlightState ρ κ) : Prop where
  single : s.dispatches.length = s.busy.toNat
  depth : s.host.depthOf .queue + s.puts = s.gets
  alone : s.owedGets ≠ 0 → s.flights = []

omit [DecidableEq ρ] in
theorem InFlightAux.dispatches_nil (h : InFlightAux s) (hbusy : s.busy = false) :
    s.dispatches = [] := by
  rw [← List.length_eq_zero_iff, h.single, hbusy]
  rfl

omit [DecidableEq ρ] in
theorem InFlightAux.dispatches_eq (h : InFlightAux s) (hd : d ∈ s.dispatches) :
    s.dispatches = [d] := by
  have hle : s.dispatches.length ≤ 1 := by
    rw [h.single]
    exact Bool.toNat_le _
  have hlength : s.dispatches.length = 1 := le_antisymm hle (List.length_pos_of_mem hd)
  obtain ⟨d', hone⟩ := List.length_eq_one_iff.mp hlength
  rw [hone] at hd ⊢
  rw [List.mem_singleton.mp hd]

section Views

omit [DecidableEq ρ] [DecidableEq κ]

theorem contributions_nil (h : s.dispatches = []) :
    s.contributions = s.flights.map Flight.type := by
  rw [InFlightState.contributions, h]
  rfl

theorem contributions_counts (h : s.dispatches = [d]) (hd : d.pc.counts = true) :
    s.contributions = d.type :: s.flights.map Flight.type := by
  rw [InFlightState.contributions, h, List.filter_cons_of_pos (by rw [hd])]
  rfl

theorem contributions_not_counts (h : s.dispatches = [d]) (hd : d.pc.counts = false) :
    s.contributions = s.flights.map Flight.type := by
  rw [InFlightState.contributions, h,
    List.filter_cons_of_neg (by rw [hd]; exact Bool.false_ne_true)]
  rfl

theorem owedGets_of (h : s.dispatches = [d]) :
    s.owedGets = if d.pc = .getting then 1 else 0 := by
  rw [InFlightState.owedGets, h, List.countP_singleton]
  simp only [decide_eq_true_eq]

theorem owedGets_nil (h : s.dispatches = []) : s.owedGets = 0 := by
  rw [InFlightState.owedGets, h, List.countP_nil]

theorem executing_iff (h : s.dispatches = [d]) : s.Executing ↔ d.pc.executing = true := by
  rw [InFlightState.Executing, h]
  simp only [List.mem_singleton, exists_eq_left]

theorem not_executing (h : s.dispatches = []) : ¬s.Executing := by
  rintro ⟨d, hd, -⟩
  rw [h] at hd
  cases hd

end Views

/-- What the accounting is about. -/
def InFlightState.core (s : InFlightState ρ κ) :=
  (s.inFlight, s.busy, s.dispatches, s.flights, s.host, s.owedPuts, s.gets, s.puts, s.recovering)

omit [DecidableEq ρ] in
/-- The rest of the state does not matter. -/
theorem accounting_congr (h : s'.core = s.core) (hs : InFlightCorrect s) (haux : InFlightAux s) :
    InFlightCorrect s' ∧ InFlightAux s' := by
  cases s
  cases s'
  simp only [InFlightState.core, Prod.mk.injEq] at h
  obtain ⟨rfl, rfl, rfl, rfl, rfl, rfl, rfl, rfl, rfl⟩ := h
  exact ⟨⟨hs.nonneg, hs.counted, hs.dcmd, hs.balanced, hs.claimed⟩,
    ⟨haux.single, haux.depth, haux.alone⟩⟩

omit [DecidableEq ρ] [DecidableEq κ] in
theorem InFlightCorrect.balanced_list (h : InFlightCorrect s) :
    s.gets + s.owedGets =
      s.puts + s.owedPuts + (if s.contributions = [] then 0 else 1) + s.recovering.toNat := by
  rw [h.balanced]
  simp only [Counts.tot_eq_zero (show Counts s.inFlight s.contributions from h.counted)]

omit [DecidableEq ρ] [DecidableEq κ] in
theorem inFlightCorrect_of (hcounts : Counts s.inFlight s.contributions)
    (hdcmd : s.inFlight .dcmd ≤ 1)
    (hbalanced : s.gets + s.owedGets =
      s.puts + s.owedPuts + (if s.contributions = [] then 0 else 1) + s.recovering.toNat)
    (hclaimed : s.Executing ∨ s.flights ≠ [] → s.host.owner = some .queue) : InFlightCorrect s where
  nonneg type := by
    rw [hcounts type]
    exact Int.natCast_nonneg _
  counted := hcounts
  dcmd := hdcmd
  balanced := by
    rw [hbalanced]
    simp only [hcounts.tot_eq_zero]
  claimed := hclaimed

omit [DecidableEq ρ] in
/-- The claims of the queue, when no call is about to take the card. -/
theorem depthOf_queue (hs : InFlightCorrect s) (haux : InFlightAux s) (hget : s.owedGets = 0) :
    s.host.depthOf .queue =
      s.owedPuts + (if s.contributions = [] then 0 else 1) + s.recovering.toNat := by
  have hdepth := haux.depth
  have hbalanced := hs.balanced_list
  omega

omit [DecidableEq ρ] in
/-- A new call, with its request counted. It takes the card if the request is the only one. -/
theorem accounting_newDispatch (hs : InFlightCorrect s) (haux : InFlightAux s)
    (hbusy : s.busy = false) {type : IssueType} (hdcmd : type = .dcmd → s.inFlight .dcmd = 0)
    {pc : DispatchPc} (hpc : pc = if s.contributions = [] then .getting else .issuing)
    (hbusy' : s'.busy = true) (hd : ∃ r, s'.dispatches = [⟨r, type, pc⟩])
    (hin : s'.inFlight = Function.update s.inFlight type (s.inFlight type + 1))
    (hsame : s'.flights = s.flights ∧ s'.host = s.host ∧ s'.owedPuts = s.owedPuts ∧
      s'.gets = s.gets ∧ s'.puts = s.puts ∧ s'.recovering = s.recovering) :
    InFlightCorrect s' ∧ InFlightAux s' := by
  obtain ⟨r, hd⟩ := hd
  obtain ⟨hflights, hhost, howed, hgets, hputs, hrec⟩ := hsame
  have hnil : s.dispatches = [] := haux.dispatches_nil hbusy
  have hcounts' : pc.counts = true := by rw [hpc]; split <;> rfl
  have hcontrib : s'.contributions = type :: s.contributions := by
    rw [contributions_counts hd hcounts', hflights, contributions_nil hnil]
  have hget : s'.owedGets = if s.contributions = [] then 1 else 0 := by
    rw [owedGets_of hd, hpc]
    by_cases hempty : s.contributions = []
    · rw [if_pos hempty, if_pos rfl, if_pos hempty]
    · rw [if_neg hempty, if_neg nofun, if_neg hempty]
  have hdepth := depthOf_queue hs haux (owedGets_nil hnil)
  refine ⟨inFlightCorrect_of ?_ ?_ ?_ ?_, ⟨by rw [hd, hbusy']; rfl, ?_, fun hne => ?_⟩⟩
  · rw [hin, hcontrib]
    exact Counts.inc hs.counted type
  · rw [hin]
    by_cases ht : type = .dcmd
    · subst ht
      rw [Function.update_self, hdcmd rfl]
      rfl
    · rw [Function.update_of_ne (Ne.symm ht)]
      exact hs.dcmd
  · have hbalanced := hs.balanced_list
    rw [owedGets_nil hnil] at hbalanced
    rw [hget, hcontrib, if_neg (List.cons_ne_nil _ _), hgets, hputs, howed, hrec]
    by_cases hempty : s.contributions = []
    · simp only [if_pos hempty] at hbalanced ⊢
      omega
    · simp only [if_neg hempty] at hbalanced ⊢
      omega
  · rw [hhost, executing_iff hd, hflights]
    rintro (hexec | hne)
    · have hnonempty : s.contributions ≠ [] := by
        intro hempty
        rw [hpc, if_pos hempty] at hexec
        cases hexec
      rw [if_neg hnonempty] at hdepth
      exact ReentrantLock.owner_of_depthOf_pos (by omega)
    · exact hs.claimed (.inr hne)
  · rw [hhost, hputs, hgets]
    exact haux.depth
  · have hempty : s.contributions = [] := by
      by_contra hne'
      exact hne (by rw [hget, if_neg hne'])
    rw [contributions_nil hnil, List.map_eq_nil_iff] at hempty
    rw [hflights, hempty]

/-- **A dispatch.** The first critical section of `mmc_mq_queue_rq`. -/
theorem accounting_dispatch (hs : InFlightCorrect s) (haux : InFlightAux s) (r : ρ) :
    InFlightCorrect (s.dispatchSection q r) ∧ InFlightAux (s.dispatchSection q r) := by
  rw [InFlightState.dispatchSection]
  by_cases hrefused : s.recoveryNeeded ∨ s.busy
  · simp only [if_pos hrefused]
    exact ⟨hs, haux⟩
  by_cases hdcmd : mmcIssueType q (s.op r) = .dcmd ∧ s.inFlight .dcmd ≠ 0
  · simp only [if_neg hrefused, if_pos hdcmd]
    exact accounting_congr (s := s) rfl hs haux
  simp only [if_neg hrefused, if_neg hdcmd]
  have hbusy : s.busy = false := Bool.eq_false_of_not_eq_true fun h => hrefused (.inr h)
  have hfirst : mmcTotInFlight (Function.update s.inFlight (mmcIssueType q (s.op r))
      (s.inFlight (mmcIssueType q (s.op r)) + 1)) = 1 ↔ s.contributions = [] := by
    rw [(Counts.inc hs.counted _).tot, List.length_cons, ← List.length_eq_zero_iff]
    omega
  refine accounting_newDispatch hs haux hbusy (fun ht => ?_)
    (rfl : (if s.contributions = [] then DispatchPc.getting else .issuing) = _) rfl ⟨r, ?_⟩ rfl
    ⟨rfl, rfl, rfl, rfl, rfl, rfl⟩
  · by_contra hne
    exact hdcmd ⟨ht, hne⟩
  · simp only [haux.dispatches_nil hbusy, hfirst, decide_eq_true_eq]

omit [DecidableEq ρ] [DecidableEq κ] in
/-- A step that counts nothing, and does not change what is owed. -/
theorem correct_of_same (hs : InFlightCorrect s) (hin : s'.inFlight = s.inFlight)
    (hperm : s.contributions.Perm s'.contributions)
    (hcalls : s'.gets + s'.owedGets + (s.puts + s.owedPuts + s.recovering.toNat) =
      s.gets + s.owedGets + (s'.puts + s'.owedPuts + s'.recovering.toNat))
    (hclaimed : s'.Executing ∨ s'.flights ≠ [] → s'.host.owner = some .queue) :
    InFlightCorrect s' := by
  refine inFlightCorrect_of ?_ ?_ ?_ hclaimed
  · rw [hin]
    exact Counts.perm hs.counted hperm
  · rw [hin]
    exact hs.dcmd
  · have hempty : s'.contributions = [] ↔ s.contributions = [] := by
      rw [← List.length_eq_zero_iff, ← hperm.length_eq, List.length_eq_zero_iff]
    have hbalanced := hs.balanced_list
    simp only [hempty]
    omega

omit [DecidableEq κ] in
/-- The only call, further on. -/
theorem dispatches_moveTo (h : s.dispatches = [d]) (pc : DispatchPc) :
    (s.moveTo d pc).dispatches = [{ d with pc := pc }] := by
  rw [InFlightState.moveTo, h, List.erase_cons_head]

/-- The call takes the card. -/
theorem accounting_getCard (hs : InFlightCorrect s) (haux : InFlightAux s)
    (hd : d ∈ s.dispatches ∧ d.pc = .getting) (h : (s.moveTo d .issuing).getCard = some s') :
    InFlightCorrect s' ∧ InFlightAux s' := by
  obtain ⟨hd, hpc⟩ := hd
  have hone : s.dispatches = [d] := haux.dispatches_eq hd
  obtain ⟨host, hacq, rfl⟩ := Option.map_eq_some_iff.mp h
  have hone' := dispatches_moveTo hone .issuing
  have hget : s.owedGets = 1 := by rw [owedGets_of hone, if_pos hpc]
  have hget' : (s.moveTo d .issuing).owedGets = 0 := by rw [owedGets_of hone', if_neg nofun]
  have hcontrib : s.contributions = (s.moveTo d .issuing).contributions := by
    rw [contributions_counts hone (by rw [hpc]; rfl), contributions_counts hone' rfl]
    rfl
  refine ⟨correct_of_same hs rfl (List.Perm.of_eq hcontrib) ?_ fun _ => ?_, ⟨?_, ?_, fun hne => ?_⟩⟩
  · show s.gets + 1 + (s.moveTo d .issuing).owedGets + _ = s.gets + s.owedGets + _
    rw [hget, hget']
    rfl
  · exact ReentrantLock.owner_of_acquire hacq
  · show (s.moveTo d .issuing).dispatches.length = s.busy.toNat
    rw [hone', ← haux.single, hone]
    rfl
  · show host.depthOf .queue + s.puts = s.gets + 1
    rw [ReentrantLock.depthOf_acquire_self hacq, ← haux.depth]
    exact Nat.add_right_comm _ _ _
  · exact absurd hget' hne

/-- Nothing but the calls and the requests has changed. -/
structure SameCounts (s s' : InFlightState ρ κ) : Prop where
  inFlight : s'.inFlight = s.inFlight
  busy : s'.busy = s.busy
  host : s'.host = s.host
  owedPuts : s'.owedPuts = s.owedPuts
  gets : s'.gets = s.gets
  puts : s'.puts = s.puts
  recovering : s'.recovering = s.recovering

omit [DecidableEq ρ] in
/-- Calls and requests that go on. -/
theorem accounting_of_sameCounts (hs : InFlightCorrect s) (haux : InFlightAux s)
    (h : SameCounts s s') (hperm : s.contributions.Perm s'.contributions)
    (hget : s'.owedGets = s.owedGets) (hlen : s'.dispatches.length = s.dispatches.length)
    (halone : s.flights = [] → s'.owedGets ≠ 0 → s'.flights = [])
    (hexec : s'.Executing ∨ s'.flights ≠ [] → s.Executing ∨ s.flights ≠ []) :
    InFlightCorrect s' ∧ InFlightAux s' := by
  refine ⟨correct_of_same hs h.inFlight hperm ?_ fun hne => ?_, ⟨?_, ?_, fun hne => ?_⟩⟩
  · rw [h.gets, h.puts, h.owedPuts, h.recovering, hget]
  · rw [h.host]
    exact hs.claimed (hexec hne)
  · rw [hlen, haux.single, h.busy]
  · rw [h.host, h.puts, h.gets]
    exact haux.depth
  · exact halone (haux.alone (hget ▸ hne)) hne

/-- A call goes on within `mmc_blk_mq_issue_rq`, or returns from it. What was counted for the call
is counted for the started request. -/
theorem accounting_moveTo (hs : InFlightCorrect s) (haux : InFlightAux s) (h : SameCounts s s')
    (hd : d ∈ s.dispatches) (pc : DispatchPc) (hd' : s'.dispatches = (s.moveTo d pc).dispatches)
    (hpc : d.pc ≠ .getting) (hpc' : pc ≠ .getting)
    (hexec : pc.executing = true → d.pc.executing = true)
    (hflights : s'.flights = s.flights ∧ pc.counts = d.pc.counts ∨
      (∃ b, s'.flights = ⟨d.req, d.type, b⟩ :: s.flights) ∧ d.pc.executing = true ∧
        d.pc.counts = true ∧ pc.counts = false) :
    InFlightCorrect s' ∧ InFlightAux s' := by
  have hone : s.dispatches = [d] := haux.dispatches_eq hd
  rw [dispatches_moveTo hone] at hd'
  have hget : s.owedGets = 0 := by rw [owedGets_of hone, if_neg hpc]
  have hget' : s'.owedGets = 0 := by rw [owedGets_of hd', if_neg hpc']
  refine accounting_of_sameCounts hs haux h (List.Perm.of_eq ?_) (hget'.trans hget.symm)
    (by rw [hone, hd']; rfl) (fun _ hne => absurd hget' hne) ?_
  · rcases hflights with ⟨hsame, hcounts⟩ | ⟨⟨b, hcons⟩, -, hcounts, hcounts'⟩
    · cases hold : d.pc.counts with
      | true =>
        rw [contributions_counts hone hold, contributions_counts hd' (hcounts.trans hold), hsame]
      | false =>
        rw [contributions_not_counts hone hold,
          contributions_not_counts hd' (hcounts.trans hold), hsame]
    · rw [contributions_counts hone hcounts, contributions_not_counts hd' hcounts', hcons]
      rfl
  · rw [executing_iff hone, executing_iff hd']
    rintro (hex | hne)
    · exact .inl (hexec hex)
    · rcases hflights with ⟨hsame, -⟩ | ⟨-, hex, -⟩
      · exact .inr (hsame ▸ hne)
      · exact .inl hex

omit [DecidableEq ρ] [DecidableEq κ] in
theorem owedPuts_decInFlight (s : InFlightState ρ κ) (t : IssueType) :
    (s.decInFlight t).owedPuts =
      if mmcTotInFlight (s.decInFlight t).inFlight = 0 then s.owedPuts + 1 else s.owedPuts :=
  rfl

omit [DecidableEq ρ] in
/-- **One request less.** The accounting stays correct exactly when the counter of its type goes
down. -/
theorem accounting_dec_iff (hs : InFlightCorrect s) (haux : InFlightAux s)
    (hin : s'.inFlight = (s.decInFlight t').inFlight)
    (howed : s'.owedPuts = (s.decInFlight t').owedPuts)
    (hsame : s'.host = s.host ∧ s'.gets = s.gets ∧ s'.puts = s.puts ∧ s'.recovering = s.recovering)
    (hperm : s.contributions.Perm (t :: s'.contributions)) (hget : s'.owedGets = s.owedGets)
    (hexec : s'.Executing ∨ s'.flights ≠ [] → s.Executing ∨ s.flights ≠ [])
    (hsingle : s'.dispatches.length = s'.busy.toNat) (halone : s.flights = [] → s'.flights = []) :
    (InFlightCorrect s' ↔ t' = t) ∧ InFlightAux s' := by
  obtain ⟨hhost, hgets, hputs, hrec⟩ := hsame
  have hcounts : Counts s.inFlight (t :: s'.contributions) := Counts.perm hs.counted hperm
  refine ⟨⟨fun hs' => ?_, ?_⟩, ⟨hsingle, ?_, fun hne => halone (haux.alone (hget ▸ hne))⟩⟩
  · have hcounts' : Counts s'.inFlight s'.contributions := hs'.counted
    rw [hin] at hcounts'
    exact (counts_dec_iff hcounts).mp hcounts'
  · rintro rfl
    have hcounts' : Counts s'.inFlight s'.contributions := by
      rw [hin]
      exact (counts_dec_iff hcounts).mpr rfl
    refine inFlightCorrect_of hcounts' ?_ ?_ fun hne => ?_
    · have hle : s'.contributions.count .dcmd ≤ (t' :: s'.contributions).count .dcmd :=
        List.count_le_count_cons
      have hold := hs.dcmd
      rw [hcounts] at hold
      rw [hcounts']
      omega
    · have hbalanced := hs.balanced_list
      have hnonempty : s.contributions ≠ [] := by
        rw [← List.length_pos_iff, hperm.length_eq]
        exact Nat.succ_pos _
      have hzero : mmcTotInFlight (s.decInFlight t').inFlight = 0 ↔ s'.contributions = [] := by
        rw [← hin]
        exact hcounts'.tot_eq_zero
      rw [if_neg hnonempty] at hbalanced
      rw [hget, hgets, hputs, hrec, howed]
      by_cases hempty : s'.contributions = []
      · rw [if_pos hempty, owedPuts_decInFlight, if_pos (hzero.mpr hempty)]
        omega
      · rw [if_neg hempty, owedPuts_decInFlight, if_neg (hzero.not.mpr hempty)]
        omega
    · rw [hhost]
      exact hs.claimed (hexec hne)
  · rw [hhost, hgets, hputs]
    exact haux.depth

/-- **The end of a call.** It takes its request off the counter that it remembers, if the request
was not started. -/
theorem accounting_finish (hs : InFlightCorrect s) (haux : InFlightAux s) {issued : Issued}
    (hd : d ∈ s.dispatches) (hpc : d.pc = .returned issued) :
    InFlightCorrect (s.finishDispatch d issued) ∧ InFlightAux (s.finishDispatch d issued) := by
  have hone : s.dispatches = [d] := haux.dispatches_eq hd
  have herase : s.dispatches.erase d = [] := by rw [hone, List.erase_cons_head]
  have hnil : (s.finishDispatch d issued).dispatches = [] := by cases issued <;> exact herase
  have hflights : (s.finishDispatch d issued).flights = s.flights := by cases issued <;> rfl
  have hsingle : (s.finishDispatch d issued).dispatches.length =
      (s.finishDispatch d issued).busy.toNat := by
    rw [hnil]
    cases issued <;> rfl
  have hget : (s.finishDispatch d issued).owedGets = s.owedGets := by
    rw [owedGets_nil hnil, owedGets_of hone, hpc, if_neg nofun]
  have hexec : (s.finishDispatch d issued).Executing ∨ (s.finishDispatch d issued).flights ≠ [] →
      s.Executing ∨ s.flights ≠ [] := by
    rw [hflights]
    exact Or.imp_left fun hex => absurd hex (not_executing hnil)
  have hcontrib := contributions_nil hnil
  rw [hflights] at hcontrib
  by_cases hstarted : issued = .started
  · subst hstarted
    refine ⟨correct_of_same hs rfl (List.Perm.of_eq ?_) ?_ fun hne => hs.claimed (hexec hne),
      ⟨hsingle, haux.depth, fun hne => haux.alone (hget ▸ hne)⟩⟩
    · rw [hcontrib, contributions_not_counts hone (by rw [hpc]; rfl)]
    · rw [hget]
      rfl
  · have hcounts : d.pc.counts = true := by
      rw [hpc]
      exact decide_eq_true hstarted
    have hperm : s.contributions.Perm (d.type :: (s.finishDispatch d issued).contributions) := by
      rw [hcontrib, contributions_counts hone hcounts]
    have hdec : (InFlightCorrect (s.finishDispatch d issued) ↔ d.type = d.type) ∧
        InFlightAux (s.finishDispatch d issued) := by
      refine accounting_dec_iff hs haux ?_ ?_ ?_ hperm hget hexec hsingle fun h => hflights.trans h
      · cases issued with
        | started => exact absurd rfl hstarted
        | busy | failedToStart | finished => rfl
      · cases issued with
        | started => exact absurd rfl hstarted
        | busy | failedToStart | finished => rfl
      · cases issued <;> exact ⟨rfl, rfl, rfl, rfl⟩
    exact ⟨hdec.1.mpr rfl, hdec.2⟩

/-- **A completion.** It takes the request off the counter of the type that it reads. -/
theorem accounting_accountFor_iff (hs : InFlightCorrect s) (haux : InFlightAux s) {f : Flight ρ}
    (hf : f ∈ s.flights) :
    (InFlightCorrect (s.accountFor q f) ↔ mmcIssueType q (s.op f.req) = f.type) ∧
      InFlightAux (s.accountFor q f) := by
  have hperm : s.contributions.Perm (f.type :: (s.accountFor q f).contributions) := by
    have hflights : (s.flights.map Flight.type).Perm
        (f.type :: (s.flights.erase f).map Flight.type) := (List.perm_cons_erase hf).map Flight.type
    exact (hflights.append_left _).trans List.perm_middle
  refine accounting_dec_iff hs haux rfl rfl ⟨rfl, rfl, rfl, rfl⟩ hperm rfl ?_ haux.single ?_
  · exact Or.imp_right fun _ => List.ne_nil_of_mem hf
  · intro hnil
    rw [hnil] at hf
    cases hf

omit [DecidableEq ρ] in
/-- The calls for the card that the claims of the queue stand for. While a call is to take the card,
its request is in flight. -/
theorem owedPuts_le_depthOf (hs : InFlightCorrect s) (haux : InFlightAux s) :
    s.owedPuts + s.recovering.toNat ≤ s.host.depthOf .queue := by
  cases hd : s.dispatches with
  | nil =>
    have hdepth := depthOf_queue hs haux (owedGets_nil hd)
    omega
  | cons d ds =>
    have hone : s.dispatches = [d] := haux.dispatches_eq (by rw [hd]; exact List.mem_cons_self)
    by_cases hpc : d.pc = .getting
    · have hcontrib := contributions_counts hone (by rw [hpc]; rfl)
      have hbalanced := hs.balanced_list
      have hdepth := haux.depth
      rw [owedGets_of hone, if_pos hpc, if_neg (by rw [hcontrib]; exact List.cons_ne_nil _ _)]
        at hbalanced
      omega
    · have hdepth := depthOf_queue hs haux (by rw [owedGets_of hone, if_neg hpc])
      omega

omit [DecidableEq ρ] in
/-- While started requests are not completed, no call is to take the card, and the queue holds the
claim for them besides those that are to be put. -/
theorem owedPuts_lt_depthOf (hs : InFlightCorrect s) (haux : InFlightAux s)
    (hflights : s.flights ≠ []) : s.owedPuts < s.host.depthOf .queue := by
  have hget : s.owedGets = 0 := by
    by_contra hne
    exact hflights (haux.alone hne)
  have hnonempty : s.contributions ≠ [] := by
    intro hempty
    rw [InFlightState.contributions, List.append_eq_nil_iff, List.map_eq_nil_iff,
      List.map_eq_nil_iff] at hempty
    exact hflights hempty.2
  have hdepth := depthOf_queue hs haux hget
  rw [if_neg hnonempty] at hdepth
  omega

omit [DecidableEq ρ] in
/-- **A put of the card.** It leaves the claim to the requests in flight, but not to a call whose
request was the last one. -/
theorem accounting_putCard_iff (hs : InFlightCorrect s) (haux : InFlightAux s)
    (howed : 0 < s.owedPuts) :
    let s' := { s with host := s.host.release, owedPuts := s.owedPuts - 1, puts := s.puts + 1 }
    (InFlightCorrect s' ↔ (s.Executing → 1 < s.host.depth)) ∧ InFlightAux s' := by
  intro s'
  have hle := owedPuts_le_depthOf hs haux
  have howner : s.host.owner = some .queue := ReentrantLock.owner_of_depthOf_pos (by omega)
  have hrelease := ReentrantLock.depthOf_release_self howner
  refine ⟨⟨fun hs' hex => ?_, fun hC => ?_⟩, ⟨haux.single, ?_, haux.alone⟩⟩
  · have howner' : s.host.release.owner = some .queue := hs'.claimed (.inl hex)
    by_contra hle
    rw [ReentrantLock.owner_release, if_neg hle] at howner'
    cases howner'
  · refine correct_of_same hs rfl (List.Perm.refl _) ?_ ?_
    · show s.gets + s.owedGets + (s.puts + s.owedPuts + s.recovering.toNat) =
        s.gets + s.owedGets + (s.puts + 1 + (s.owedPuts - 1) + s.recovering.toNat)
      omega
    · show s.Executing ∨ s.flights ≠ [] → s.host.release.owner = some .queue
      intro hne
      rw [ReentrantLock.owner_release, if_pos, howner]
      rcases hne with hex | hflights
      · exact hC hex
      · have hlt := owedPuts_lt_depthOf hs haux hflights
        rw [ReentrantLock.depthOf_of_owner howner] at hlt
        omega
  · show s.host.release.depthOf .queue + (s.puts + 1) = s.gets
    have hdepth := haux.depth
    omega

omit [DecidableEq ρ] in
/-- The recovery takes the card. -/
theorem accounting_recoveryGet (hs : InFlightCorrect s) (haux : InFlightAux s)
    (hrec : s.recovering = false) {host : ReentrantLock (HostUser κ)}
    (hacq : s.host.acquire .queue = some host) :
    let s' := { s with
      recoveryWork := false, recovering := true, host := host, gets := s.gets + 1 }
    InFlightCorrect s' ∧ InFlightAux s' := by
  intro s'
  refine ⟨correct_of_same hs rfl (List.Perm.refl _) ?_ fun _ => ?_, ⟨haux.single, ?_, haux.alone⟩⟩
  · show s.gets + 1 + s.owedGets + (s.puts + s.owedPuts + s.recovering.toNat) =
      s.gets + s.owedGets + (s.puts + s.owedPuts + 1)
    rw [hrec, Bool.toNat_false]
    omega
  · exact ReentrantLock.owner_of_acquire hacq
  · show host.depthOf .queue + s.puts = s.gets + 1
    have hdepth := haux.depth
    have := ReentrantLock.depthOf_acquire_self hacq
    omega

omit [DecidableEq ρ] in
/-- The recovery is to put the card. -/
theorem accounting_recoveryDone (hs : InFlightCorrect s) (haux : InFlightAux s)
    (hrec : s.recovering = true) :
    let s' := { s with
      recoveryNeeded := false, recovering := false, owedPuts := s.owedPuts + 1 }
    InFlightCorrect s' ∧ InFlightAux s' := by
  intro s'
  refine ⟨correct_of_same hs rfl (List.Perm.refl _) ?_ hs.claimed,
    ⟨haux.single, haux.depth, haux.alone⟩⟩
  show s.gets + s.owedGets + (s.puts + s.owedPuts + s.recovering.toNat) =
    s.gets + s.owedGets + (s.puts + (s.owedPuts + 1) + 0)
  rw [hrec, Bool.toNat_true]
  omega

omit [DecidableEq ρ] in
/-- Other users of the host leave the claims of the queue alone, and cannot take or release the host
while the queue needs it. -/
theorem accounting_otherUser (hs : InFlightCorrect s) (haux : InFlightAux s)
    {host : ReentrantLock (HostUser κ)} (hdepth : host.depthOf .queue = s.host.depthOf .queue)
    (howner : s.host.owner ≠ some .queue) :
    let s' := { s with host := host }
    InFlightCorrect s' ∧ InFlightAux s' := by
  intro s'
  refine ⟨correct_of_same hs rfl (List.Perm.refl _) rfl fun hne => absurd (hs.claimed hne) howner,
    ⟨haux.single, ?_, haux.alone⟩⟩
  show host.depthOf .queue + s.puts = s.gets
  rw [hdepth]
  exact haux.depth

/-- A request is ended before it is accounted for. -/
theorem accounting_endRq (hs : InFlightCorrect s) (haux : InFlightAux s) {f : Flight ρ}
    (hf : f ∈ s.flights) (requeue : Bool) :
    let s' := { s.endRq f.req requeue with
      flights := { f with ended := true } :: s.flights.erase f }
    InFlightCorrect s' ∧ InFlightAux s' := by
  intro s'
  have hflights : (s.flights.map Flight.type).Perm (s'.flights.map Flight.type) :=
    (List.perm_cons_erase hf).map Flight.type
  refine accounting_of_sameCounts hs haux ⟨rfl, rfl, rfl, rfl, rfl, rfl, rfl⟩
    (hflights.append_left _) rfl rfl (fun hnil => ?_) (Or.imp_right fun _ => List.ne_nil_of_mem hf)
  rw [hnil] at hf
  cases hf

/-- **One step.** It keeps the accounting correct exactly when it meets the condition. -/
theorem accounting_next_iff {a : InFlightAction ρ κ} (hs : InFlightCorrect s) (haux : InFlightAux s)
    (h : s.next q a = some s') : (InFlightCorrect s' ↔ KeepsInFlight q s a) ∧ InFlightAux s' := by
  have hkeep : InFlightCorrect s' ∧ InFlightAux s' →
      (InFlightCorrect s' ↔ True) ∧ InFlightAux s' :=
    fun hgood => ⟨iff_true_intro hgood.1, hgood.2⟩
  cases a with
  | alloc r op =>
    rw [InFlightState.next, Option.ite_none_right_eq_some] at h
    obtain ⟨-, ⟨⟩⟩ := h
    exact hkeep (accounting_congr (s := s) rfl hs haux)
  | reject r =>
    rw [InFlightState.next, Option.ite_none_right_eq_some] at h
    obtain ⟨-, ⟨⟩⟩ := h
    exact hkeep (accounting_congr (s := s) rfl hs haux)
  | dispatch r =>
    rw [InFlightState.next, Option.ite_none_right_eq_some] at h
    obtain ⟨-, ⟨⟩⟩ := h
    exact hkeep (accounting_dispatch hs haux r)
  | getCard d =>
    rw [InFlightState.next, Option.ite_none_right_eq_some] at h
    exact hkeep (accounting_getCard hs haux h.1 h.2)
  | start d =>
    rw [InFlightState.next, Option.ite_none_right_eq_some] at h
    obtain ⟨⟨hd, hpc⟩, ⟨⟩⟩ := h
    exact hkeep (accounting_moveTo hs haux ⟨rfl, rfl, rfl, rfl, rfl, rfl, rfl⟩ hd .started rfl
      (by rw [hpc]; exact nofun) nofun (fun _ => by rw [hpc]; rfl)
      (.inr ⟨⟨false, rfl⟩, by rw [hpc]; rfl, by rw [hpc]; rfl, rfl⟩))
  | issueReturn d issued =>
    rw [InFlightState.next, Option.ite_none_right_eq_some] at h
    obtain ⟨⟨hd, hpc⟩, ⟨⟩⟩ := h
    have hcounts : (DispatchPc.returned issued).counts = d.pc.counts := by
      rw [hpc]
      cases issued <;> rfl
    refine hkeep (accounting_moveTo hs haux ?_ hd (.returned issued) ?_
      (by rw [hpc]; split <;> exact nofun) nofun nofun (.inl ⟨?_, hcounts⟩))
    · cases issued <;> exact ⟨rfl, rfl, rfl, rfl, rfl, rfl, rfl⟩
    · cases issued <;> rfl
    · cases issued <;> rfl
  | finish d =>
    rw [InFlightState.next] at h
    cases hpc : d.pc with
    | returned issued =>
      simp only [hpc] at h
      rw [Option.ite_none_right_eq_some] at h
      obtain ⟨hd, ⟨⟩⟩ := h
      exact hkeep (accounting_finish hs haux hd hpc)
    | getting | issuing | started => simp only [hpc, reduceCtorEq] at h
  | endRq f requeue =>
    rw [InFlightState.next, Option.ite_none_right_eq_some] at h
    obtain ⟨⟨hf, -⟩, ⟨⟩⟩ := h
    exact hkeep (accounting_endRq hs haux hf requeue)
  | account f =>
    rw [InFlightState.next, Option.ite_none_right_eq_some] at h
    obtain ⟨⟨hf, -⟩, ⟨⟩⟩ := h
    exact accounting_accountFor_iff hs haux hf
  | endLate r requeue =>
    rw [InFlightState.next, Option.ite_none_right_eq_some] at h
    obtain ⟨-, ⟨⟩⟩ := h
    exact hkeep (accounting_congr (s := s) rfl hs haux)
  | putCard =>
    rw [InFlightState.next, Option.ite_none_right_eq_some] at h
    obtain ⟨howed, ⟨⟩⟩ := h
    exact accounting_putCard_iff hs haux howed
  | notifyRecovery =>
    cases h
    exact hkeep (accounting_congr (s := s) rfl hs haux)
  | recoveryGet =>
    rw [InFlightState.next, Option.ite_none_right_eq_some] at h
    obtain ⟨⟨-, hrec⟩, h⟩ := h
    obtain ⟨host, hacq, rfl⟩ := Option.map_eq_some_iff.mp h
    exact hkeep (accounting_recoveryGet hs haux hrec hacq)
  | recoveryDone =>
    rw [InFlightState.next, Option.ite_none_right_eq_some] at h
    obtain ⟨hrec, ⟨⟩⟩ := h
    exact hkeep (accounting_recoveryDone hs haux hrec)
  | claim u =>
    obtain ⟨host, hacq, rfl⟩ := Option.map_eq_some_iff.mp h
    have hne : HostUser.other u ≠ .queue := nofun
    exact hkeep (accounting_otherUser hs haux (ReentrantLock.depthOf_acquire_other hne hacq)
      fun howner => hne (ReentrantLock.eq_owner_of_acquire hacq howner).symm)
  | unclaim =>
    rw [InFlightState.next] at h
    cases howner : s.host.owner with
    | none => simp only [howner, reduceCtorEq] at h
    | some o =>
      cases o with
      | queue => simp only [howner, reduceCtorEq] at h
      | other u =>
        simp only [howner, Option.some.injEq] at h
        subst h
        have hne : HostUser.other u ≠ .queue := nofun
        have hdepth := ReentrantLock.depthOf_release_other hne howner
        refine hkeep (accounting_otherUser hs haux hdepth ?_)
        rw [howner]
        exact fun heq => hne (Option.some.inj heq)

/-! ### Runs -/

theorem inFlightCorrect_init : InFlightCorrect (inFlightSystem q ρ κ).init where
  nonneg _ := le_rfl
  counted _ := rfl
  dcmd := zero_le_one
  balanced := rfl
  claimed := by
    rintro (⟨d, hd, -⟩ | hne)
    · cases hd
    · exact absurd rfl hne

theorem inFlightAux_init : InFlightAux (inFlightSystem q ρ κ).init where
  single := rfl
  depth := rfl
  alone _ := rfl

/-- **Requests in flight.** In every run of calls, completions and recoveries, whoever else uses the
host, the accounting is correct in every state exactly when no structure of a completed request is
used for a request of another issue type before it has been accounted for, and the last put of the
card never comes while `mmc_blk_mq_issue_rq` is executing. -/
theorem always_inFlightCorrect_iff {as : List (InFlightAction ρ κ)} {s : InFlightState ρ κ}
    (hrun : (inFlightSystem q ρ κ).run as = some s) :
    (inFlightSystem q ρ κ).Always InFlightCorrect (inFlightSystem q ρ κ).init as ↔
      (inFlightSystem q ρ κ).Obeys (KeepsInFlight q) (inFlightSystem q ρ κ).init as :=
  (inFlightSystem q ρ κ).always_iff_obeys (S := InFlightAux)
    (fun _ _ _ haux hs h => (accounting_next_iff hs haux h).2)
    (fun _ _ _ haux hs h => (accounting_next_iff hs haux h).1) inFlightAux_init inFlightCorrect_init
    hrun

end System

/-- A read is dispatched, and started. -/
def readStarted : List (InFlightAction ℕ ℕ) :=
  [.alloc 0 .read, .dispatch 0, .getCard ⟨0, .async, .getting⟩, .start ⟨0, .async, .issuing⟩]

/-- The call that started it returns. -/
def readReturned : List (InFlightAction ℕ ℕ) :=
  [.issueReturn ⟨0, .async, .started⟩ .started, .finish ⟨0, .async, .returned .started⟩]

/-- A read is accounted for, and its put of the card comes after the next call has taken the
card. -/
theorem always_inFlightCorrect_iff_sample :
    (inFlightSystem ⟨false, false⟩ ℕ ℕ).Always InFlightCorrect
      (inFlightSystem ⟨false, false⟩ ℕ ℕ).init
      (readStarted ++ readReturned ++ [.account ⟨0, .async, false⟩, .alloc 1 .flush, .dispatch 1,
        .getCard ⟨1, .sync, .getting⟩, .putCard]) :=
  (always_inFlightCorrect_iff (Option.some_get (by decide)).symm).mpr (by decide)

/-- **A wrong counter.** A read completes, and its structure is used for a discard before it has
been accounted for: the counter of the synchronous requests is `-1`. And a read that is accounted
for before `mmc_blk_mq_issue_rq` returns leaves the call without a claim on the host. -/
theorem account_wrong_type :
    ((inFlightSystem ⟨false, false⟩ ℕ ℕ).run (readStarted ++ readReturned ++
        [.endRq ⟨0, .async, false⟩ false, .alloc 0 .discard, .account ⟨0, .async, true⟩])).map
          (fun s => (s.inFlight .sync, s.inFlight .async)) = some (-1, 1) ∧
      ((inFlightSystem ⟨false, false⟩ ℕ ℕ).run (readStarted ++
        [.account ⟨0, .async, false⟩, .putCard])).map
          (fun s => (decide s.Executing, s.host.owner)) = some (true, none) ∧
      ¬∀ as, (inFlightSystem ⟨false, false⟩ ℕ ℕ).Always InFlightCorrect
        (inFlightSystem ⟨false, false⟩ ℕ ℕ).init as := by
  refine ⟨by decide, by decide, fun h => ?_⟩
  have hlast := (h _).last (Option.some_get (x := (inFlightSystem ⟨false, false⟩ ℕ ℕ).run
    (readStarted ++ readReturned ++ [.endRq ⟨0, .async, false⟩ false, .alloc 0 .discard,
      .account ⟨0, .async, true⟩])) (by decide)).symm
  exact absurd (hlast.nonneg .sync) (by decide)

end LinuxDriver.Mmc
