import LinuxDriver.Lts
import LinuxDriver.ReentrantLock

/-!
# Claiming the host

`__mmc_claim_host` and `mmc_release_host` change the claim of a host under `host->lock`. A claim is
made with a context, or with `NULL`, for which the default context of the host stands; the default
context belongs to the task that is recorded in it. No caller passes the default context itself.

The first claim takes a reference of the runtime power management and the last release drops it,
both after the lock has been dropped: these calls sleep. So between the two the host may be claimed
or released by others, and while the claim goes up and down in turn, the calls need not.

## Main definitions

* `ClaimHost`, `mmcCtxMatches`, `mmcCtxSetClaimer`, `mmcClaimHostPass`, `mmcReleaseHost`.
* `ClaimHost.Represents`: the re-entrant lock that a host stands for.
* `claimSystem`: any number of tasks that claim and release.
* `ClaimCorrect`: the claim in a state, and the power management calls so far.

## Main results

* `mmcClaimHostPass_spec`, `mmcReleaseHost_spec`: the two functions refine a re-entrant lock.
* `claimSystem_correct`: the claim in every reachable state.
* `claimSystem_calls_overtake`: two references are taken before one is dropped.
-/

namespace LinuxDriver.Mmc

/-! ### The critical sections -/

/-- A `struct mmc_ctx`: the default context of the host, or one of its users. -/
inductive MmcCtx (γ : Type*)
  | default
  | user (c : γ)
  deriving DecidableEq

/-- The claim of a `struct mmc_host`, and the `task` of each context. -/
structure ClaimHost (τ γ : Type*) where
  claimed : Bool
  claimer : Option (MmcCtx γ)
  claimCnt : ℤ
  task : MmcCtx γ → Option τ

/-- A pass of the loop of `__mmc_claim_host` sleeps, aborts with the value of the flag, or claims
the host, for the first time or not. -/
inductive ClaimPass (τ γ : Type*)
  | wait
  | aborted (stop : ℤ)
  | claimed (host : ClaimHost τ γ) (pm : Bool)

section Sections

variable {τ γ : Type*} [DecidableEq τ] [DecidableEq γ]

/-- `mmc_ctx_matches` -/
def mmcCtxMatches (host : ClaimHost τ γ) (ctx : Option γ) (task : Option τ) : Bool :=
  host.claimer = ctx.map .user ||
    (ctx.isNone && task.isSome &&
      match host.claimer with
      | none => false
      | some claimer => host.task claimer = task)

/-- `mmc_ctx_set_claimer` -/
def mmcCtxSetClaimer (host : ClaimHost τ γ) (ctx : Option γ) (task : Option τ) : ClaimHost τ γ :=
  let claimer := host.claimer.getD ((ctx.map .user).getD .default)
  { host with
    claimer := some claimer
    task := if task.isSome then Function.update host.task claimer task else host.task }

/-- The variable `task` of `__mmc_claim_host`. -/
def claimTask (ctx : Option γ) (current : τ) : Option τ :=
  if ctx.isSome then none else some current

/-- One pass of the loop of `__mmc_claim_host` by the task `current`, and what follows the loop up
to the end of the critical section. The abort flag, if there is one, reads as `abort`. -/
def mmcClaimHostPass (host : ClaimHost τ γ) (ctx : Option γ) (current : τ) (abort : Option ℤ) :
    ClaimPass τ γ :=
  let task := claimTask ctx current
  let stop := abort.getD 0
  if stop ≠ 0 ∨ host.claimed = false ∨ mmcCtxMatches host ctx task then
    if stop = 0 then
      let host := mmcCtxSetClaimer { host with claimed := true } ctx task
      let host := { host with claimCnt := host.claimCnt + 1 }
      .claimed host (host.claimCnt = 1)
    else .aborted stop
  else .wait

/-- The critical section of `mmc_release_host`, and whether it was the last release. A host without
a claimer would be a `NULL` pointer followed. -/
def mmcReleaseHost (host : ClaimHost τ γ) : Option (ClaimHost τ γ × Bool) :=
  let host := { host with claimCnt := host.claimCnt - 1 }
  if host.claimCnt ≠ 0 then some (host, false)
  else
    match host.claimer with
    | none => none
    | some claimer =>
      some ({ host with
        claimed := false, task := Function.update host.task claimer none, claimer := none }, true)

/-! ### The lock that a host stands for -/

/-- Who owns a claim: the task that made it with `NULL`, or the context. -/
inductive ClaimOwner (τ γ : Type*)
  | task (t : τ)
  | ctx (c : γ)
  deriving DecidableEq

/-- The owner of a claim that the task makes. -/
def ClaimOwner.of (ctx : Option γ) (t : τ) : ClaimOwner τ γ := ctx.elim (.task t) .ctx

/-- The claimer of a host that the owner has claimed. -/
def ClaimOwner.claimer : ClaimOwner τ γ → MmcCtx γ
  | .task _ => .default
  | .ctx c => .user c

/-- The `task` of each context when the host is claimed by the owner, if there is one. -/
def ownerTask : Option (ClaimOwner τ γ) → MmcCtx γ → Option τ
  | some (.task t), .default => some t
  | _, _ => none

/-- The host stands for the lock: no context but that of the owner has a task. -/
structure ClaimHost.Represents (host : ClaimHost τ γ) (l : ReentrantLock (ClaimOwner τ γ)) :
    Prop where
  claimed : host.claimed = true ↔ l ≠ .free
  claimCnt : host.claimCnt = l.depth
  claimer : host.claimer = l.owner.map ClaimOwner.claimer
  task : host.task = ownerTask l.owner

variable {host host' : ClaimHost τ γ} {l : ReentrantLock (ClaimOwner τ γ)} {ctx : Option γ} {t : τ}

/-- On a claimed host, the test accepts its owner only. No context but that of the owner has a task
by which it could be mistaken. -/
theorem mmcCtxMatches_iff {o : ClaimOwner τ γ} {n : ℕ} (h : host.Represents (.held o n)) :
    mmcCtxMatches host ctx (claimTask ctx t) = true ↔ o = ClaimOwner.of ctx t := by
  have hclaimer : host.claimer = some o.claimer := h.claimer
  have htask : host.task = ownerTask (some o) := h.task
  cases o with
  | task u =>
    cases ctx <;>
      simp [mmcCtxMatches, claimTask, ClaimOwner.of, hclaimer, htask, ClaimOwner.claimer, ownerTask]
  | ctx c =>
    cases ctx <;>
      simp [mmcCtxMatches, claimTask, ClaimOwner.of, hclaimer, htask, ClaimOwner.claimer, ownerTask]

/-- The claimer of a host that the owner can claim, with the default of `mmc_ctx_set_claimer`. -/
theorem claimer_getD {l' : ReentrantLock (ClaimOwner τ γ)} (h : host.Represents l)
    (hacq : l.acquire (ClaimOwner.of ctx t) = some l') :
    host.claimer.getD ((ctx.map .user).getD .default) = (ClaimOwner.of ctx t).claimer := by
  rw [h.claimer]
  cases l with
  | free => cases ctx <;> rfl
  | held o n =>
    rw [← ReentrantLock.eq_owner_of_acquire hacq rfl]
    rfl

omit [DecidableEq τ] [DecidableEq γ] in
/-- Only the default context ever has a task. -/
theorem ClaimHost.Represents.task_user (h : host.Represents l) (c : γ) :
    host.task (.user c) = none := by
  rw [h.task]
  rcases l.owner with - | (u | c') <;> rfl

/-- The tasks of the contexts after a claim. -/
theorem task_setClaimer {l' : ReentrantLock (ClaimOwner τ γ)} (h : host.Represents l)
    (hacq : l.acquire (ClaimOwner.of ctx t) = some l') :
    (mmcCtxSetClaimer host ctx (claimTask ctx t)).task = ownerTask (some (ClaimOwner.of ctx t)) := by
  rw [mmcCtxSetClaimer, claimer_getD h hacq]
  cases ctx with
  | none =>
    funext c
    cases c with
    | default => exact Function.update_self (.default : MmcCtx γ) (some t) host.task
    | user c =>
      calc Function.update host.task .default (some t) (.user c)
        _ = host.task (.user c) := Function.update_of_ne (by simp) ..
        _ = none := h.task_user c
  | some c =>
    -- the lock is free, or held by the same context
    have howner : l.owner = none ∨ l.owner = some (.ctx c) := by
      cases l with
      | free => exact .inl rfl
      | held o n => exact .inr (congrArg some (ReentrantLock.eq_owner_of_acquire hacq rfl))
    calc host.task
      _ = ownerTask l.owner := h.task
      _ = ownerTask (some (.ctx c)) := by
        funext c'
        rcases howner with hfree | hheld
        · rw [hfree]; rfl
        · rw [hheld]

/-- A claim of the host is one of the lock. -/
theorem represents_setClaimer {l' : ReentrantLock (ClaimOwner τ γ)} (h : host.Represents l)
    (hacq : l.acquire (ClaimOwner.of ctx t) = some l') (b : Bool) :
    ClaimHost.Represents
      { mmcCtxSetClaimer { host with claimed := b } ctx (claimTask ctx t) with
        claimed := true, claimCnt := host.claimCnt + 1 } l' where
  claimed := iff_of_true rfl (ReentrantLock.ne_free_of_acquire hacq)
  claimCnt := by
    rw [ReentrantLock.depth_of_acquire hacq, h.claimCnt]
    rfl
  claimer := by
    rw [ReentrantLock.owner_of_acquire hacq]
    have hclaimer := claimer_getD h hacq
    exact congrArg some hclaimer
  task := by
    rw [ReentrantLock.owner_of_acquire hacq]
    have htask := task_setClaimer h hacq
    exact htask

variable (ctx t) in
/-- The test of the loop is whether the owner can take the lock. -/
theorem canClaim_iff (h : host.Represents l) :
    (host.claimed = false ∨ mmcCtxMatches host ctx (claimTask ctx t) = true) ↔
      l.acquire (ClaimOwner.of ctx t) ≠ none := by
  cases l with
  | free =>
    have hclaimed : host.claimed = false := by simpa using h.claimed
    exact iff_of_true (.inl hclaimed) (Option.some_ne_none _)
  | held o n =>
    have hclaimed : host.claimed ≠ false := by simpa using h.claimed
    calc host.claimed = false ∨ mmcCtxMatches host ctx (claimTask ctx t) = true
      _ ↔ mmcCtxMatches host ctx (claimTask ctx t) = true := or_iff_right hclaimed
      _ ↔ o = ClaimOwner.of ctx t := mmcCtxMatches_iff h
      _ ↔ _ := ReentrantLock.acquire_held_ne_none.symm

variable (ctx t) in
/-- **A pass of the loop.** It aborts when the flag is set. Otherwise it claims the lock, if the
owner of the call can, and sleeps if not. -/
theorem mmcClaimHostPass_spec (h : host.Represents l) (abort : Option ℤ) :
    match mmcClaimHostPass host ctx t abort with
    | .aborted stop => stop ≠ 0 ∧ abort = some stop
    | .wait => l.acquire (ClaimOwner.of ctx t) = none
    | .claimed host' pm => ∃ l', l.acquire (ClaimOwner.of ctx t) = some l' ∧ host'.Represents l' ∧
        (pm = true ↔ l = .free) := by
  have hcan := canClaim_iff ctx t h
  by_cases hstop : abort.getD 0 = 0
  · cases hacq : l.acquire (ClaimOwner.of ctx t) with
    | none =>
      have hnot := hcan.not.mpr (not_not.mpr hacq)
      simp only [mmcClaimHostPass, hstop, ne_eq, not_true_eq_false, false_or, if_neg hnot]
    | some l' =>
      have hyes := hcan.mpr (by rw [hacq]; exact nofun)
      simp only [mmcClaimHostPass, hstop, ne_eq, not_true_eq_false, false_or, if_pos hyes, if_true]
      refine ⟨l', rfl, represents_setClaimer h hacq true, ?_⟩
      rw [← ReentrantLock.depth_eq_zero, decide_eq_true_iff]
      show host.claimCnt + 1 = 1 ↔ _
      rw [h.claimCnt]
      omega
  · cases abort with
    | none => exact absurd rfl hstop
    | some stop =>
      simp only [mmcClaimHostPass, hstop, ne_eq, not_false_eq_true, true_or, if_true, if_false]
      exact ⟨trivial, rfl⟩

omit [DecidableEq τ] in
/-- The tasks of the contexts after the last release. -/
theorem task_release {o : ClaimOwner τ γ} {n : ℕ} (h : host.Represents (.held o n)) :
    Function.update host.task o.claimer none = ownerTask none := by
  have htask : host.task = ownerTask (some o) := h.task
  funext c
  cases o with
  | task u =>
    cases c with
    | default => exact Function.update_self (.default : MmcCtx γ) none host.task
    | user c =>
      exact (Function.update_of_ne (by simp [ClaimOwner.claimer]) _ _).trans (h.task_user c)
  | ctx c' =>
    have hnone : Function.update host.task (.user c') none c = host.task c := by
      by_cases hc : c = .user c'
      · rw [hc, Function.update_self, h.task_user]
      · exact Function.update_of_ne hc ..
    calc Function.update host.task (.user c') none c
      _ = ownerTask (some (.ctx c')) c := by rw [hnone, htask]
      _ = ownerTask none c := rfl

omit [DecidableEq τ] in
/-- **A release.** On a lock that is held, it gives the lock back once. -/
theorem mmcReleaseHost_spec (h : host.Represents l) (hl : l ≠ .free) :
    ∃ host' last, mmcReleaseHost host = some (host', last) ∧
      ClaimHost.Represents host' l.release ∧ (last = true ↔ l.release = .free) := by
  cases l with
  | free => exact absurd rfl hl
  | held o n =>
    have hcnt : host.claimCnt = (n : ℤ) + 1 := h.claimCnt
    have hclaimer : host.claimer = some o.claimer := h.claimer
    cases n with
    | zero =>
      have hlast : ¬host.claimCnt - 1 ≠ 0 := by omega
      refine ⟨⟨false, none, host.claimCnt - 1, Function.update host.task o.claimer none⟩, true, ?_,
        ⟨iff_of_false nofun fun hne => hne rfl, ?_, rfl, task_release h⟩, iff_of_true rfl rfl⟩
      · simp only [mmcReleaseHost, if_neg hlast, hclaimer]
      · exact not_not.mp hlast
    | succ n =>
      have hnested : host.claimCnt - 1 ≠ 0 := by omega
      refine ⟨{ host with claimCnt := host.claimCnt - 1 }, false, if_pos hnested,
        ⟨iff_of_true (h.claimed.mpr nofun) nofun, ?_, h.claimer, h.task⟩, iff_of_false nofun nofun⟩
      calc host.claimCnt - 1
        _ = (n : ℤ) + 1 := by rw [hcnt]; push_cast; ring
        _ = ((ReentrantLock.held o n).depth : ℤ) := rfl

end Sections

/-! ### Tasks -/

/-- Where a task is: in no call, in the loop of `__mmc_claim_host`, after it with a reference to
take, or after the critical section of `mmc_release_host` with a reference to drop. -/
inductive ClaimPc (γ : Type*)
  | idle
  | claiming (ctx : Option γ)
  | owesGet
  | owesPut
  deriving DecidableEq

/-- What a task does: the claim goes up or down, `pm_runtime_get_sync`, and
`pm_runtime_put_autosuspend`. -/
inductive PmEvent (τ : Type*)
  | up (t : τ)
  | get (t : τ)
  | down (t : τ)
  | put (t : τ)
  deriving DecidableEq

/-- The task that does it. -/
def PmEvent.task {τ : Type*} : PmEvent τ → τ
  | .up t | .get t | .down t | .put t => t

/-- The changes of `claimed`. -/
def PmEvent.transition {τ : Type*} : PmEvent τ → Option Bool
  | .up _ => some true
  | .down _ => some false
  | _ => none

/-- The calls of the runtime power management. -/
def PmEvent.call {τ : Type*} : PmEvent τ → Option Bool
  | .get _ => some true
  | .put _ => some false
  | _ => none

/-- The host, its tasks, the owners of the claims that were not released, and what was done. -/
structure ClaimState (τ γ : Type*) where
  host : ClaimHost τ γ
  pc : τ → ClaimPc γ
  claims : List (ClaimOwner τ γ)
  log : List (PmEvent τ)

/-- A task calls `__mmc_claim_host`, passes its loop once, takes the reference, releases a claim,
or drops the reference. -/
inductive ClaimAction (τ γ : Type*)
  | enter (t : τ) (ctx : Option γ)
  | pass (t : τ) (abort : Option ℤ)
  | get (t : τ)
  | release (t : τ) (o : ClaimOwner τ γ)
  | put (t : τ)

/-- A claim of a task is released by that task, and one of a context by anyone. -/
def ClaimOwner.ReleasedBy {τ γ : Type*} (t : τ) : ClaimOwner τ γ → Prop
  | .task u => u = t
  | .ctx _ => True

section System

variable {τ γ : Type*} [DecidableEq τ] [DecidableEq γ]

instance (t : τ) : (o : ClaimOwner τ γ) → Decidable (o.ReleasedBy t)
  | .task u => inferInstanceAs (Decidable (u = t))
  | .ctx _ => isTrue trivial

namespace ClaimState

variable (s : ClaimState τ γ)

def goto (t : τ) (pc : ClaimPc γ) : ClaimState τ γ := { s with pc := Function.update s.pc t pc }

def record (e : PmEvent τ) : ClaimState τ γ := { s with log := s.log ++ [e] }

def next : ClaimAction τ γ → Option (ClaimState τ γ)
  | .enter t ctx => if s.pc t = .idle then some (s.goto t (.claiming ctx)) else none
  | .pass t abort =>
    match s.pc t with
    | .claiming ctx =>
      match mmcClaimHostPass s.host ctx t abort with
      | .wait => some s
      | .aborted _ => some (s.goto t .idle)
      | .claimed host pm =>
        let s := { s with host := host, claims := ClaimOwner.of ctx t :: s.claims }
        some (if pm then (s.goto t .owesGet).record (.up t) else s.goto t .idle)
    | _ => none
  | .get t => if s.pc t = .owesGet then some ((s.goto t .idle).record (.get t)) else none
  | .release t o =>
    if s.pc t = .idle ∧ o ∈ s.claims ∧ o.ReleasedBy t then
      (mmcReleaseHost s.host).map fun r =>
        let s := { s with host := r.1, claims := s.claims.erase o }
        if r.2 then (s.goto t .owesPut).record (.down t) else s
    else none
  | .put t => if s.pc t = .owesPut then some ((s.goto t .idle).record (.put t)) else none

end ClaimState

/-- The claims and releases of any number of tasks. -/
def claimSystem (τ γ : Type*) [DecidableEq τ] [DecidableEq γ] :
    Lts (ClaimState τ γ) (ClaimAction τ γ) where
  init := ⟨⟨false, none, 0, fun _ => none⟩, fun _ => .idle, [], []⟩
  next := ClaimState.next

/-- Changes in turn, the first to `true` and the last to `b`. -/
structure AlternatesTo (b : Bool) (xs : List Bool) : Prop where
  chain : List.IsChain (· ≠ ·) (false :: xs)
  last : (false :: xs).getLast? = some b

/-- **A correct claim.** The three fields of the host agree, the count is the number of the claims
that were not released, and these have one owner. The claim goes up and down in turn. A task takes
one reference for each time that it makes the claim go up, and drops one for each time that it makes
it go down, after the critical section and before its call returns. -/
structure ClaimCorrect (s : ClaimState τ γ) : Prop where
  claimed : s.host.claimed = true ↔ 0 < s.host.claimCnt
  claimer : 0 < s.host.claimCnt ↔ s.host.claimer ≠ none
  count : s.host.claimCnt = s.claims.length
  single : ∀ o ∈ s.claims, ∀ o' ∈ s.claims, o = o'
  transitions : AlternatesTo s.host.claimed (s.log.filterMap PmEvent.transition)
  gets : ∀ t, s.log.count (.up t) = s.log.count (.get t) + if s.pc t = .owesGet then 1 else 0
  puts : ∀ t, s.log.count (.down t) = s.log.count (.put t) + if s.pc t = .owesPut then 1 else 0

/-! ### One step -/

variable {s s' : ClaimState τ γ} {t : τ}

omit [DecidableEq τ] [DecidableEq γ] in
theorem AlternatesTo.snoc {b : Bool} {xs : List Bool} (h : AlternatesTo b xs) :
    AlternatesTo (!b) (xs ++ [!b]) where
  chain := by
    rw [← List.cons_append, List.isChain_append]
    refine ⟨h.chain, List.isChain_singleton _, ?_⟩
    rw [h.last]
    rintro _ ⟨rfl⟩ _ ⟨rfl⟩
    cases b <;> decide
  last := by rw [← List.cons_append, List.getLast?_append]; rfl

omit [DecidableEq τ] in
/-- A call changes nothing about the claim. -/
theorem filterMap_transition_snoc {e : PmEvent τ} (he : e.transition = none)
    (log : List (PmEvent τ)) :
    (log ++ [e]).filterMap PmEvent.transition = log.filterMap PmEvent.transition := by
  rw [List.filterMap_append, List.filterMap_cons_none he, List.filterMap_nil, List.append_nil]

/-- A task takes a reference for each time it made the claim go up, and drops one for each time it
made it go down. -/
def PmCounted (s : ClaimState τ γ) : Prop :=
  ∀ t, s.log.count (.up t) = s.log.count (.get t) + (if s.pc t = .owesGet then 1 else 0) ∧
    s.log.count (.down t) = s.log.count (.put t) + if s.pc t = .owesPut then 1 else 0

/-- A step of a task that settles what the task owes. -/
theorem PmCounted.step (h : PmCounted s) {pc : ClaimPc γ} (es : List (PmEvent τ))
    (htask : ∀ e ∈ es, e.task = t)
    (hget : es.count (.up t) + (if s.pc t = .owesGet then 1 else 0) =
      es.count (.get t) + if pc = .owesGet then 1 else 0)
    (hput : es.count (.down t) + (if s.pc t = .owesPut then 1 else 0) =
      es.count (.put t) + if pc = .owesPut then 1 else 0)
    (hpc : s'.pc = Function.update s.pc t pc) (hlog : s'.log = s.log ++ es) : PmCounted s' := by
  intro u
  obtain ⟨hup, hdown⟩ := h u
  simp only [hlog, List.count_append]
  by_cases hu : u = t
  · subst hu
    rw [hpc, Function.update_self]
    omega
  · have hnone : ∀ e : PmEvent τ, e.task = u → es.count e = 0 := by
      intro e he
      refine List.count_eq_zero.mpr fun hmem => hu ?_
      rw [← he, htask e hmem]
    rw [hpc, Function.update_of_ne hu, hnone (.up u) rfl, hnone (.get u) rfl, hnone (.down u) rfl,
      hnone (.put u) rfl]
    exact ⟨hup, hdown⟩

/-- A step of a task that owes nothing, before or after. -/
theorem PmCounted.goto (h : PmCounted s) {pc : ClaimPc γ}
    (hold : s.pc t ≠ .owesGet ∧ s.pc t ≠ .owesPut) (hnew : pc ≠ .owesGet ∧ pc ≠ .owesPut)
    (hpc : s'.pc = Function.update s.pc t pc) (hlog : s'.log = s.log) : PmCounted s' := by
  refine h.step [] nofun ?_ ?_ hpc (by rw [hlog, List.append_nil])
  · rw [if_neg hold.1, if_neg hnew.1]
    rfl
  · rw [if_neg hold.2, if_neg hnew.2]
    rfl

omit [DecidableEq τ] [DecidableEq γ] in
/-- A change of `claimed` that is recorded. -/
theorem alternatesTo_record {b : Bool} {e : PmEvent τ} (he : e.transition = some b)
    (h : AlternatesTo s.host.claimed (s.log.filterMap PmEvent.transition))
    (hold : s.host.claimed = !b) (hnew : s'.host.claimed = b) (hlog : s'.log = s.log ++ [e]) :
    AlternatesTo s'.host.claimed (s'.log.filterMap PmEvent.transition) := by
  have hsnoc := h.snoc
  rw [hold, Bool.not_not] at hsnoc
  rw [hnew, hlog, List.filterMap_append, List.filterMap_cons_some he, List.filterMap_nil]
  exact hsnoc

/-- The host stands for a lock that accounts for the claims, the claim went up and down in turn, and
the tasks took and dropped their references. -/
structure ClaimInv (s : ClaimState τ γ) : Prop where
  lock : ∃ l, s.host.Represents l ∧ l.Accounts s.claims
  transitions : AlternatesTo s.host.claimed (s.log.filterMap PmEvent.transition)
  counted : PmCounted s

theorem ClaimInv.correct (h : ClaimInv s) : ClaimCorrect s := by
  obtain ⟨l, hrep, hacc⟩ := h.lock
  have hpos : 0 < s.host.claimCnt ↔ l ≠ .free := by
    rw [hrep.claimCnt, Int.natCast_pos, Nat.pos_iff_ne_zero, ne_eq, ReentrantLock.depth_eq_zero]
  refine ⟨hrep.claimed.trans hpos.symm, ?_, ?_, fun o ho o' ho' => hacc.single ho ho',
    h.transitions, fun t => (h.counted t).1, fun t => (h.counted t).2⟩
  · rw [hpos, hrep.claimer]
    cases l with
    | free => exact iff_of_false (fun hne => hne rfl) (fun hne => hne rfl)
    | held o n => exact iff_of_true nofun nofun
  · rw [hrep.claimCnt, hacc.length]

omit [DecidableEq τ] [DecidableEq γ] in
theorem ClaimHost.Represents.claimed_of_free {host : ClaimHost τ γ} (h : host.Represents .free) :
    host.claimed = false := by
  simpa using h.claimed

/-- A pass of the loop. -/
theorem ClaimInv.pass {ctx : Option γ} {abort : Option ℤ} (h : ClaimInv s)
    (hpc : s.pc t = .claiming ctx) (hnext : s.next (.pass t abort) = some s') : ClaimInv s' := by
  obtain ⟨l, hrep, hacc⟩ := h.lock
  have hspec := mmcClaimHostPass_spec ctx t hrep abort
  simp only [ClaimState.next, hpc] at hnext
  cases hpass : mmcClaimHostPass s.host ctx t abort with
  | wait =>
    rw [hpass] at hnext
    cases hnext
    exact h
  | aborted stop =>
    rw [hpass] at hnext
    cases hnext
    exact ⟨h.lock, h.transitions, h.counted.goto (by simp [hpc]) (by simp) rfl rfl⟩
  | claimed host pm =>
    rw [hpass] at hnext hspec
    obtain ⟨l', hacq, hrep', hpm⟩ := hspec
    have hclaimed : host.claimed = true :=
      hrep'.claimed.mpr (ReentrantLock.ne_free_of_acquire hacq)
    cases pm with
    | true =>
      obtain rfl : l = .free := hpm.mp rfl
      cases hnext
      refine ⟨⟨l', hrep', hacc.acquire hacq⟩, ?_, ?_⟩
      · exact alternatesTo_record (e := .up t) rfl h.transitions hrep.claimed_of_free hclaimed rfl
      · exact h.counted.step [.up t] (by simp [PmEvent.task]) (by simp [hpc])
          (by simp [hpc]) rfl rfl
    | false =>
      have hold : s.host.claimed = true := by
        refine hrep.claimed.mpr fun hfree => ?_
        have := hpm.mpr hfree
        cases this
      cases hnext
      refine ⟨⟨l', hrep', hacc.acquire hacq⟩, ?_, ?_⟩
      · have htransitions := h.transitions
        rw [hold, ← hclaimed] at htransitions
        exact htransitions
      · exact h.counted.goto (by simp [hpc]) (by simp) rfl rfl

/-- A release. It finds the host claimed. -/
theorem ClaimInv.release {o : ClaimOwner τ γ} (h : ClaimInv s)
    (hnext : s.next (.release t o) = some s') : ClaimInv s' := by
  obtain ⟨l, hrep, hacc⟩ := h.lock
  rw [ClaimState.next, Option.ite_none_right_eq_some, Option.map_eq_some_iff] at hnext
  obtain ⟨⟨hpc, hmem, -⟩, ⟨host, last⟩, hrel, hnext⟩ := hnext
  have hacc' : l.Accounts (o :: s.claims.erase o) := hacc.perm (List.perm_cons_erase hmem)
  have hl : l ≠ .free := hacc.ne_free hmem
  obtain ⟨host', last', hrel', hrep', hlast⟩ := mmcReleaseHost_spec hrep hl
  rw [hrel] at hrel'
  cases hrel'
  have hold : s.host.claimed = true := hrep.claimed.mpr hl
  cases last with
  | true =>
    obtain hfree : l.release = .free := hlast.mp rfl
    have hclaimed : host.claimed = false := (hfree ▸ hrep').claimed_of_free
    cases hnext
    refine ⟨⟨_, hrep', hacc'.release⟩, ?_, ?_⟩
    · exact alternatesTo_record (e := .down t) rfl h.transitions hold hclaimed rfl
    · exact h.counted.step [.down t] (by simp [PmEvent.task]) (by simp [hpc])
        (by simp [hpc]) rfl rfl
  | false =>
    have hclaimed : host.claimed = true := by
      refine hrep'.claimed.mpr fun hfree => ?_
      have := hlast.mpr hfree
      cases this
    cases hnext
    refine ⟨⟨_, hrep', hacc'.release⟩, ?_, h.counted⟩
    have htransitions := h.transitions
    rw [hold, ← hclaimed] at htransitions
    exact htransitions

theorem ClaimInv.next {a : ClaimAction τ γ} (h : ClaimInv s) (hnext : s.next a = some s') :
    ClaimInv s' := by
  cases a with
  | enter t ctx =>
    rw [ClaimState.next, Option.ite_none_right_eq_some] at hnext
    obtain ⟨hpc, ⟨⟩⟩ := hnext
    exact ⟨h.lock, h.transitions, h.counted.goto (by simp [hpc]) (by simp) rfl rfl⟩
  | pass t abort =>
    cases hpc : s.pc t with
    | claiming ctx => exact h.pass hpc hnext
    | idle | owesGet | owesPut => simp [ClaimState.next, hpc] at hnext
  | get t =>
    rw [ClaimState.next, Option.ite_none_right_eq_some] at hnext
    obtain ⟨hpc, ⟨⟩⟩ := hnext
    refine ⟨h.lock, ?_, h.counted.step [.get t] (by simp [PmEvent.task]) (by simp [hpc])
      (by simp [hpc]) rfl rfl⟩
    exact (filterMap_transition_snoc (e := .get t) rfl s.log).symm ▸ h.transitions
  | release t o => exact h.release hnext
  | put t =>
    rw [ClaimState.next, Option.ite_none_right_eq_some] at hnext
    obtain ⟨hpc, ⟨⟩⟩ := hnext
    refine ⟨h.lock, ?_, h.counted.step [.put t] (by simp [PmEvent.task]) (by simp [hpc])
      (by simp [hpc]) rfl rfl⟩
    exact (filterMap_transition_snoc (e := .put t) rfl s.log).symm ▸ h.transitions

/-! ### Runs -/

theorem claimInv_init : ClaimInv (claimSystem τ γ).init where
  lock := ⟨.free, ⟨iff_of_false nofun fun hne => hne rfl, rfl, rfl, rfl⟩,
    ReentrantLock.accounts_free⟩
  transitions := ⟨List.isChain_singleton _, rfl⟩
  counted _ := ⟨rfl, rfl⟩

/-- **Claiming the host.** Whatever the tasks do and whenever the abort flags are raised, the host
is a re-entrant lock, and its power management references are taken and dropped once for each time
that it is claimed and released. -/
theorem claimSystem_correct {s : ClaimState τ γ} (hs : (claimSystem τ γ).Reachable s) :
    ClaimCorrect s :=
  ((claimSystem τ γ).invariant claimInv_init (fun _ _ _ h => h.next) hs).correct

/-- A holder that releases its claim never follows the claimer through a `NULL` pointer. -/
theorem claimSystem_release_ne_none {s : ClaimState τ γ} (hs : (claimSystem τ γ).Reachable s)
    {t : τ} {o : ClaimOwner τ γ} (hpc : s.pc t = .idle) (hmem : o ∈ s.claims)
    (hby : o.ReleasedBy t) : (claimSystem τ γ).next s (.release t o) ≠ none := by
  obtain ⟨l, hrep, hacc⟩ :=
    ((claimSystem τ γ).invariant claimInv_init (fun _ _ _ h => h.next) hs).lock
  have hl : l ≠ .free := hacc.ne_free hmem
  obtain ⟨host, last, hrel, -⟩ := mmcReleaseHost_spec hrep hl
  simp [claimSystem, ClaimState.next, hpc, hmem, hby, hrel]

end System

/-- A task claims the host twice and releases it once. -/
theorem claimSystem_correct_sample :
    ClaimCorrect (((claimSystem ℕ ℕ).run [.enter 0 none, .pass 0 none, .get 0, .enter 0 none,
      .pass 0 (some 0), .release 0 (.task 0)]).get (by decide)) :=
  claimSystem_correct ⟨_, (Option.some_get _).symm⟩

/-- **Calls that overtake each other.** A task has released the host and not dropped its reference
yet when another one claims the host and takes a reference: two are taken in a row. -/
theorem claimSystem_calls_overtake :
    ∃ s, (claimSystem ℕ ℕ).run [.enter 0 none, .pass 0 none, .get 0, .release 0 (.task 0),
        .enter 1 none, .pass 1 none, .get 1, .put 0] = some s ∧
      s.log.filterMap PmEvent.call = [true, true, false] ∧
      ∀ b, ¬AlternatesTo b (s.log.filterMap PmEvent.call) := by
  refine ⟨_, (Option.some_get (by decide)).symm, by decide, fun b h => ?_⟩
  exact absurd h.chain (by decide)

end LinuxDriver.Mmc
