import LinuxDriver.Cqhci.Queue

/-!
# What recovery does to the queue

From the halt of the queue to the end of recovery nothing is accepted, and each request that was in
its slot at the halt is given back once, by recovery, with nothing transferred. A request that
carried a flag at the halt comes back with an error. Every error interrupt and every timeout flags a
task that is in its slot, so that each recovery gives at least one request back with an error. The
block layer puts a failed request back onto its queue `MMC_CQE_RETRIES` times only: this bounds the
recoveries by the requests.

## Main definitions

* `Recovered`, `HaltedSince`: a completion by recovery, and a run on a halted queue.
* `mmcBlkCqeCompleteRq`, `Requeued`: what the block layer does with a completion.
* `Progress`, `Retried`: the invariants behind the bound.

## Main results

* `recovery_gives_back`: what recovery leaves of the requests.
* `recoveries_le`: the bound on the recoveries.
-/

namespace LinuxDriver.Cqhci

variable {s s' u : State} {a : Action} {as : List Action}

/-! ### From the halt to the end of recovery -/

/-- A request given back by recovery, that was in its slot in the state `s`; if its slot carried a
flag there, it carried one when recovery came to it. -/
def Recovered (s : State) (c : Completion) : Prop :=
  ∃ tag flags, s.host.mrqs tag = some c.mrq ∧ c = Host.recoveredWith c.mrq flags ∧
    ((s.host.slot tag).flags ≠ ∅ → flags ≠ ∅)

/-- What holds as long as the queue stays halted: nothing was accepted, and what was in the slots
at the state `s` is there or was given back by recovery. -/
structure HaltedSince (s u : State) : Prop where
  halted : u.host.recoveryHalt = true
  accepted : u.accepted = s.accepted
  slots : ∀ tag mrq, u.host.mrqs tag = some mrq → s.host.mrqs tag = some mrq
  flagged : ∀ tag, (s.host.slot tag).flags ≠ ∅ → (u.host.slot tag).flags ≠ ∅
  given : ∃ cs, u.host.done = s.host.done ++ cs ∧ (∀ c ∈ cs, Recovered s c) ∧
    ↑(cs.map (·.mrq)) + u.host.queued = s.host.queued

theorem HaltedSince.refl (hhalt : s.host.recoveryHalt = true) : HaltedSince s s :=
  ⟨hhalt, rfl, fun _ _ => id, fun _ => id, [], by simp, by simp, by simp⟩

/-- A step that leaves the requests as they are, and no flagged slot without a flag. -/
theorem HaltedSince.congr (hu : HaltedSince s u) (hhalt : s'.host.recoveryHalt = true)
    (haccepted : s'.accepted = u.accepted) (hmrqs : s'.host.mrqs = u.host.mrqs)
    (hdone : s'.host.done = u.host.done)
    (hflags : ∀ tag, (u.host.slot tag).flags ≠ ∅ → (s'.host.slot tag).flags ≠ ∅) :
    HaltedSince s s' where
  halted := hhalt
  accepted := haccepted.trans hu.accepted
  slots tag mrq h := hu.slots tag mrq (hmrqs ▸ h)
  flagged tag h := hflags tag (hu.flagged tag h)
  given := by
    obtain ⟨cs, hcs, hrec, hsum⟩ := hu.given
    refine ⟨cs, hdone.trans hcs, hrec, ?_⟩
    rw [Host.queued, hmrqs]
    exact hsum

theorem HaltedSince.completeIrq (hu : HaltedSince s u) (tcn : BitVec 32) :
    HaltedSince s { u with host := u.host.completeIrq tcn } := by
  refine Host.completeIrq_induction (P := fun h => HaltedSince s { u with host := h }) hu ?_ ?_ tcn
  · intro h tag hh
    have hhalt : h.recoveryHalt = true := hh.halted
    rcases h.finishMrq_cases tag with ⟨-, heq⟩ | ⟨mrq, hmrq, ⟨-, heq⟩ | ⟨hrun, -⟩⟩
    · rwa [heq]
    · rw [heq]
      exact hh.congr hhalt rfl (Host.mrqs_setFlags h tag _) rfl
        fun t => Host.flags_setFlags_ne_empty (Finset.insert_ne_empty _ _)
    · exact absurd (hhalt.symm.trans hrun) (by decide)
  · intro h hh
    exact hh.congr hh.halted rfl rfl rfl fun _ => id

/-- Recovery of a slot takes its request out and gives it back. -/
theorem HaltedSince.recoverMrq (hu : HaltedSince s u) (tag : Tag) {recovery : RecoveryPc} :
    HaltedSince s { u with host := u.host.recoverMrq tag, recovery := recovery } := by
  rcases u.host.recoverMrq_cases tag with ⟨-, heq⟩ | ⟨mrq, hmrq, heq⟩
  · rw [heq]
    exact hu.congr hu.halted rfl rfl rfl fun _ => id
  rw [heq]
  set c := Host.recoveredWith mrq (u.host.slot tag).flags with hc
  have hcmrq : c.mrq = mrq := mrq_recoveredWith mrq _
  have hrecovered : Recovered s c :=
    ⟨tag, (u.host.slot tag).flags, by rw [hcmrq]; exact hu.slots tag mrq hmrq, by rw [hcmrq],
      hu.flagged tag⟩
  refine ⟨hu.halted, hu.accepted, fun t m hm => ?_, fun t ht => ?_, ?_⟩
  · have hm : (u.host.giveBack tag c).mrqs t = some m := hm
    rw [Host.mrqs_giveBack] at hm
    by_cases htag : t = tag
    · rw [htag, Function.update_self] at hm
      cases hm
    · rw [Function.update_of_ne htag] at hm
      exact hu.slots t m hm
  · have hflags := hu.flagged t ht
    rwa [← Host.flags_giveBack u.host tag c t] at hflags
  · obtain ⟨cs, hcs, hrec, hsum⟩ := hu.given
    refine ⟨cs ++ [c], ?_, ?_, ?_⟩
    · change u.host.done ++ [c] = s.host.done ++ (cs ++ [c])
      rw [hcs, List.append_assoc]
    · intro d hd
      rcases List.mem_append.mp hd with hd | hd
      · exact hrec d hd
      · rwa [List.mem_singleton.mp hd]
    · change (↑((cs ++ [c]).map (·.mrq)) : Multiset Mrq) + (u.host.giveBack tag c).queued =
        s.host.queued
      rw [List.map_append, List.map_singleton, hcmrq, ← Multiset.coe_add, Multiset.coe_singleton,
        add_assoc, Multiset.singleton_add, Host.queued_giveBack hmrq, hsum]

/-- Every step but the end of recovery leaves the queue halted. -/
theorem HaltedSince.next (hst : Staged u) (hu : HaltedSince s u) (ha : a ≠ .recoveryFinish)
    (hnext : queueSystem.next u a = some s') : HaltedSince s s' := by
  cases effect_of_next hst.quiet hnext with
  | still _ hsame =>
    refine hu.congr (hsame.recoveryHalt.trans hu.halted) hsame.accepted ?_ hsame.done ?_
    · funext tag
      rw [Host.mrqs, hsame.slot, Host.mrqs]
    · intro tag h
      rwa [hsame.slot]
  | alerted _ halert => exact hu.congr halert.halted rfl halert.mrqs halert.done halert.kept
  | accepted _ hhalt => exact absurd (hu.halted.symm.trans hhalt) (by decide)
  | completed tcn => exact hu.completeIrq tcn
  | started => exact hu.congr hu.halted rfl rfl rfl fun _ => id
  | recovered hi => exact hu.recoverMrq _
  | finished => exact absurd rfl ha

/-- Every flag makes a request come back with an error. -/
theorem err_recoveredWith_ne_zero (mrq : Mrq) {flags : Finset SlotFlag} (hflags : flags ≠ ∅) :
    (Host.recoveredWith mrq flags).err ≠ 0 := by
  have herror : cqhciErrorFromFlags flags ≠ 0 := fun h => hflags (cqhciErrorFromFlags_eq_zero.mp h)
  unfold Host.recoveredWith
  by_cases hdata : mrq.data.isSome
  · rw [if_pos hdata]
    by_cases hcmd : mrq.cmd.isSome ∧ mrq.cmd.getD 0 ≠ 0
    · rw [Completion.err, if_pos hcmd]
      exact hcmd.2
    · rw [Completion.err, if_neg hcmd, if_pos ⟨hdata, herror⟩]
      exact herror
  · rw [if_neg hdata]
    have hcmd : mrq.cmd.isSome := mrq.some_part.resolve_right hdata
    rw [Completion.err, if_pos ⟨hcmd, herror⟩]
    exact herror

/-- **Recovery.** From a state of a run in which the queue is halted to the end of recovery nothing
is accepted, and each request that was in a slot is given back, once, by recovery, with an error if
its slot carried a flag. The queue is then empty and runs again. -/
theorem recovery_gives_back (hs : queueSystem.Reachable s) (hhalt : s.host.recoveryHalt = true)
    (hno : .recoveryFinish ∉ as) (hrun : queueSystem.runFrom s as = some u)
    (hfinish : queueSystem.next u .recoveryFinish = some s') :
    s'.accepted = s.accepted ∧ s'.host.queued = 0 ∧ s'.host.qcnt = 0 ∧
      s'.host.recoveryHalt = false ∧
      ∃ cs, s'.host.done = s.host.done ++ cs ∧ (cs.map (·.mrq) : Multiset Mrq) = s.host.queued ∧
        ∀ c ∈ cs, Recovered s c ∧ c.bytesXfered = 0 ∧
          ∃ tag, s.host.mrqs tag = some c.mrq ∧ ((s.host.slot tag).flags ≠ ∅ → c.err ≠ 0) := by
  have hkept : Staged u ∧ HaltedSince s u :=
    queueSystem.invariant_of_obeys (C := fun _ a => a ≠ .recoveryFinish)
      (I := fun v => Staged v ∧ HaltedSince s v)
      (fun _ _ _ hv ha hnext => ⟨hv.1.next hnext, hv.2.next hv.1 ha hnext⟩)
      ⟨staged hs, .refl hhalt⟩
      (queueSystem.obeys_of_forall (fun a ha _ => ne_of_mem_of_not_mem ha hno) s) hrun
  obtain ⟨hstaged, hsince⟩ := hkept
  obtain ⟨hrecovery, rfl⟩ := Option.ite_some_none_eq_some.mp hfinish
  have hzero : u.host.queued = 0 := hstaged.queued_eq_zero hrecovery
  obtain ⟨cs, hcs, hrec, hsum⟩ := hsince.given
  rw [hzero, add_zero] at hsum
  refine ⟨hsince.accepted, hzero, rfl, rfl, cs, hcs, hsum, fun c hc => ⟨hrec c hc, ?_, ?_⟩⟩
  · obtain ⟨tag, flags, -, heq, -⟩ := hrec c hc
    rw [heq]
    unfold Host.recoveredWith
    split_ifs <;> rfl
  · obtain ⟨tag, flags, hmrq, heq, hflags⟩ := hrec c hc
    refine ⟨tag, hmrq, fun hflagged => ?_⟩
    rw [heq]
    exact err_recoveredWith_ne_zero c.mrq (hflags hflagged)

theorem recovery_gives_back_haltedRun :
    (afterRun (haltedRun ++ recoveringRun ++ [.recoveryFinish])).accepted =
        (afterRun haltedRun).accepted ∧
      ∃ cs, (afterRun (haltedRun ++ recoveringRun ++ [.recoveryFinish])).host.done =
        (afterRun haltedRun).host.done ++ cs ∧
          (cs.map (·.mrq) : Multiset Mrq) = (afterRun haltedRun).host.queued := by
  have hhalted : queueSystem.run haltedRun = some (afterRun haltedRun) :=
    run_eq_afterRun (by decide +kernel)
  have hrecovering : queueSystem.run (haltedRun ++ recoveringRun) =
      some (afterRun (haltedRun ++ recoveringRun)) := run_eq_afterRun (by decide +kernel)
  have hfinished : queueSystem.run (haltedRun ++ recoveringRun ++ [.recoveryFinish]) =
      some (afterRun (haltedRun ++ recoveringRun ++ [.recoveryFinish])) :=
    run_eq_afterRun (by decide +kernel)
  have hrun : queueSystem.runFrom (afterRun haltedRun) recoveringRun =
      some (afterRun (haltedRun ++ recoveringRun)) := by
    obtain ⟨v, hv, hrest⟩ := queueSystem.runFrom_append_eq_some.mp hrecovering
    rwa [Option.some.inj (hhalted.symm.trans hv)]
  have hfinish : queueSystem.next (afterRun (haltedRun ++ recoveringRun)) .recoveryFinish =
      some (afterRun (haltedRun ++ recoveringRun ++ [.recoveryFinish])) := by
    obtain ⟨v, hv, hrest⟩ := queueSystem.runFrom_append_eq_some.mp hfinished
    obtain ⟨w, hw, hnil⟩ := queueSystem.runFrom_cons_eq_some.mp hrest
    rw [Option.some.inj (hrecovering.symm.trans hv), hw, Option.some.inj hnil]
  obtain ⟨haccepted, -, -, -, cs, hdone, hmrqs, -⟩ :=
    recovery_gives_back ⟨haltedRun, hhalted⟩ (by decide +kernel) (by decide) hrun hfinish
  exact ⟨haccepted, cs, hdone, hmrqs⟩

/-! ### Each recovery has a failed request -/

/-- The completions with an error. -/
def State.errored (s : State) : List Completion := s.host.done.filter fun c => c.err ≠ 0

/-- A recovery finished has a failed request of its own, and in a halted queue there is one that
will fail, or one that has. -/
structure Progress (s : State) : Prop where
  recoveries_le : s.recoveries ≤ s.errored.length
  pending : s.host.recoveryHalt = true →
    (∃ tag, (s.host.mrqs tag).isSome ∧ (s.host.slot tag).flags ≠ ∅) ∨
      s.recoveries < s.errored.length

theorem progress_init : Progress queueSystem.init where
  recoveries_le := le_rfl
  pending h := by cases h

theorem Progress.congr (hs : Progress s) (hmrqs : s'.host.mrqs = s.host.mrqs)
    (hdone : s'.host.done = s.host.done) (hrecoveries : s'.recoveries = s.recoveries)
    (hhalt : s'.host.recoveryHalt = s.host.recoveryHalt)
    (hflags : ∀ tag, (s.host.slot tag).flags ≠ ∅ → (s'.host.slot tag).flags ≠ ∅) :
    Progress s' := by
  have herrored : s'.errored = s.errored := by rw [State.errored, hdone, State.errored]
  constructor
  · rw [hrecoveries, herrored]
    exact hs.recoveries_le
  · intro h
    rcases hs.pending (hhalt ▸ h) with ⟨tag, hocc, hf⟩ | hlt
    · exact .inl ⟨tag, by rwa [hmrqs], hflags tag hf⟩
    · exact .inr (by rwa [hrecoveries, herrored])

theorem errored_giveBack (s : State) (tag : Tag) (c : Completion) :
    ({ s with host := s.host.giveBack tag c } : State).errored =
      s.errored ++ [c].filter fun c => c.err ≠ 0 :=
  List.filter_append _ _

theorem length_errored_le_giveBack (s : State) (tag : Tag) (c : Completion) :
    s.errored.length ≤ { s with host := s.host.giveBack tag c : State }.errored.length := by
  rw [errored_giveBack, List.length_append]
  exact Nat.le_add_right _ _

theorem Progress.completeIrq (hs : Progress s) (tcn : BitVec 32) :
    Progress { s with host := s.host.completeIrq tcn } := by
  refine Host.completeIrq_induction (P := fun h => Progress { s with host := h }) hs ?_ ?_ tcn
  · intro h tag hs
    rcases h.finishMrq_cases tag with ⟨-, heq⟩ | ⟨mrq, hmrq, ⟨-, heq⟩ | ⟨hrun, heq⟩⟩
    · rwa [heq]
    · rw [heq]
      exact hs.congr (s := { s with host := h }) (Host.mrqs_setFlags h tag _) rfl rfl rfl
        fun t => Host.flags_setFlags_ne_empty (Finset.insert_ne_empty _ _)
    · rw [heq]
      refine ⟨hs.recoveries_le.trans (length_errored_le_giveBack { s with host := h } tag _),
        fun hhalt => ?_⟩
      exact absurd (hrun.symm.trans hhalt) (by decide)
  · intro h hs
    exact hs.congr (s := { s with host := h }) rfl rfl rfl rfl fun _ => id

/-- Recovery of a flagged slot gives a failed request back; recovery of another one leaves the
flagged slot. -/
theorem Progress.recoverMrq (hs : Progress s) (tag : Tag) {recovery : RecoveryPc} :
    Progress { s with host := s.host.recoverMrq tag, recovery := recovery } := by
  rcases s.host.recoverMrq_cases tag with ⟨-, heq⟩ | ⟨mrq, hmrq, heq⟩
  · rw [heq]
    exact hs.congr rfl rfl rfl rfl fun _ => id
  rw [heq]
  set c := Host.recoveredWith mrq (s.host.slot tag).flags with hc
  have hle := length_errored_le_giveBack s tag c
  refine ⟨hs.recoveries_le.trans hle, fun hhalt => ?_⟩
  rcases hs.pending hhalt with ⟨t, hocc, hflags⟩ | hlt
  · by_cases htag : t = tag
    · right
      subst htag
      have hfilter : [c].filter (fun c => c.err ≠ 0) = [c] := by
        simp [hc, err_recoveredWith_ne_zero mrq hflags]
      have hlen : ({ s with host := s.host.giveBack t c } : State).errored.length =
          s.errored.length + 1 := by
        rw [errored_giveBack, hfilter, List.length_append, List.length_singleton]
      exact Nat.lt_of_le_of_lt hs.recoveries_le (hlen ▸ Nat.lt_succ_self _)
    · left
      refine ⟨t, ?_, ?_⟩
      · rw [Host.mrqs_giveBack, Function.update_of_ne htag]
        exact hocc
      · rw [Host.flags_giveBack]
        exact hflags
  · exact .inr (Nat.lt_of_lt_of_le hlt hle)

theorem Progress.next (hst : Staged s) (hs : Progress s)
    (hnext : queueSystem.next s a = some s') : Progress s' := by
  cases effect_of_next hst.quiet hnext with
  | still _ hsame =>
    refine hs.congr ?_ hsame.done hsame.recoveries hsame.recoveryHalt fun tag h => ?_
    · funext tag
      rw [Host.mrqs, hsame.slot, Host.mrqs]
    · rwa [hsame.slot]
  | alerted _ halert =>
    obtain ⟨tag, hocc, hflags⟩ := halert.flagged
    refine ⟨?_, fun _ => .inl ⟨tag, by rwa [halert.mrqs], hflags⟩⟩
    rw [State.errored, halert.done]
    exact hs.recoveries_le
  | @accepted mrq hissuing hhalt =>
    have hsubmit : (s.host.submit mrq).1.recoveryHalt = false ∧
        (s.host.submit mrq).1.done = s.host.done := by
      rw [Host.submit, if_neg (by simp [hhalt])]
      exact ⟨hhalt, rfl⟩
    refine ⟨?_, fun h => absurd (hsubmit.1.symm.trans h) (by decide)⟩
    rw [State.errored, hsubmit.2]
    exact hs.recoveries_le
  | completed tcn => exact hs.completeIrq tcn
  | started => exact hs.congr rfl rfl rfl rfl fun _ => id
  | recovered hi => exact hs.recoverMrq _
  | finished hrecovery =>
    refine ⟨?_, fun h => (by cases h)⟩
    rcases hs.pending (hst.halted 32 hrecovery) with ⟨tag, hocc, -⟩ | hlt
    · rw [hst.emptied 32 hrecovery tag tag.isLt] at hocc
      cases hocc
    · exact hlt

/-! ### Retries -/

/-- `MMC_CQE_RETRIES` -/
def mmcCqeRetries : ℕ := 2

/-- What becomes of a block request: it goes back onto the queue, or ends with `BLK_STS_OK` or with
`BLK_STS_IOERR`. -/
inductive BlkOutcome
  | requeued
  | ended (ok : Bool)
  deriving DecidableEq

/-- `mmc_blk_cqe_complete_rq`, with `mqrq->retries` before and after. -/
def mmcBlkCqeCompleteRq (retries : ℕ) (c : Completion) : BlkOutcome × ℕ :=
  if c.err ≠ 0 then
    if retries < mmcCqeRetries then (.requeued, retries + 1) else (.ended false, retries + 1)
  else match c.mrq.data with
    | some data => (if c.bytesXfered < data.rqBytes then .requeued else .ended true, retries)
    | none => (.ended true, retries)

/-- The block layer has put the request back after each of its completions. -/
def Requeued (id : ℕ) : ℕ → List Completion → Prop
  | _, [] => True
  | retries, c :: cs =>
    if c.mrq.id = id then
      (mmcBlkCqeCompleteRq retries c).1 = .requeued ∧
        Requeued id (mmcBlkCqeCompleteRq retries c).2 cs
    else Requeued id retries cs

instance decidableRequeued (id : ℕ) : (retries : ℕ) → (cs : List Completion) →
    Decidable (Requeued id retries cs)
  | _, [] => isTrue trivial
  | retries, c :: cs =>
    have := decidableRequeued id retries cs
    have := decidableRequeued id (mmcBlkCqeCompleteRq retries c).2 cs
    inferInstanceAs (Decidable (if c.mrq.id = id then _ ∧ _ else _))

/-- How often a request failed. -/
def failures (id : ℕ) (cs : List Completion) : ℕ :=
  cs.countP fun c => c.mrq.id = id ∧ c.err ≠ 0

theorem failures_append (id : ℕ) (cs : List Completion) (c : Completion) :
    failures id (cs ++ [c]) =
      failures id cs + if c.mrq.id = id ∧ c.err ≠ 0 then 1 else 0 := by
  rw [failures, List.countP_append, List.countP_singleton]
  simp [failures]

/-- A request that is put back each time has failed at most `MMC_CQE_RETRIES` times. -/
theorem failures_le_of_requeued {id retries : ℕ} {cs : List Completion}
    (hretries : retries ≤ mmcCqeRetries) (h : Requeued id retries cs) :
    retries + failures id cs ≤ mmcCqeRetries := by
  induction cs generalizing retries with
  | nil => simpa [failures] using hretries
  | cons c cs ih =>
    rw [failures, List.countP_cons, ← failures]
    by_cases hid : c.mrq.id = id
    · rw [Requeued, if_pos hid] at h
      obtain ⟨hout, hrest⟩ := h
      by_cases herr : c.err ≠ 0
      · have hlt : retries < mmcCqeRetries := by
          by_contra hge
          rw [mmcBlkCqeCompleteRq, if_pos herr, if_neg hge] at hout
          cases hout
        rw [mmcBlkCqeCompleteRq, if_pos herr, if_pos hlt] at hrest
        have := ih hlt hrest
        rw [if_pos (by simp [hid, herr])]
        omega
      · have hsame : (mmcBlkCqeCompleteRq retries c).2 = retries := by
          rw [mmcBlkCqeCompleteRq, if_neg herr]
          cases c.mrq.data <;> rfl
        rw [hsame] at hrest
        have := ih hretries hrest
        rw [if_neg (by simpa [hid] using herr)]
        omega
    · rw [Requeued, if_neg hid] at h
      have := ih hretries h
      rw [if_neg (by simp [hid])]
      omega

/-- What the block layer ensures of a request that it issues: the slot of its tag is free, the
request is in no slot already, and it was put back after each of its completions. -/
def Reissued (s : State) : Action → Prop
  | .submit => s.host.recoveryHalt = true ∨ ∀ mrq ∈ s.issuing,
      s.host.mrqs (cqhciTag mrq) = none ∧
        (∀ tag, ∀ old ∈ s.host.mrqs tag, old.id ≠ mrq.id) ∧ Requeued mrq.id 0 s.host.done
  | _ => True

instance (s : State) : (a : Action) → Decidable (Reissued s a)
  | .submit => inferInstanceAs (Decidable (_ ∨ ∀ mrq ∈ s.issuing, _ ∧ _ ∧ _))
  | .request _ _ | .errorIrq _ _ _ | .completeIrq _ | .wakeIrq | .waitForIdle _ | .isIdle _
  | .timeout _ | .recoveryStart | .recoverMrq | .recoveryFinish | .off | .suspend | .enable _
  | .disable => isTrue trivial

theorem Reissued.fillsFree (h : Reissued s a) : FillsFree s a := by
  cases a with
  | submit => exact h.imp_right fun h mrq hmrq => (h mrq hmrq).1
  | _ => trivial

/-- No request failed more often than it is tried, none that is queued has used all its tries, and
none is queued twice. -/
structure Retried (h : Host) : Prop where
  bounded : ∀ id, failures id h.done ≤ mmcCqeRetries + 1
  queued : ∀ tag mrq, h.mrqs tag = some mrq → failures mrq.id h.done ≤ mmcCqeRetries
  once : ∀ tag tag' mrq mrq', h.mrqs tag = some mrq → h.mrqs tag' = some mrq' →
    mrq.id = mrq'.id → tag = tag'

theorem Retried.congr {h h' : Host} (hs : Retried h) (hmrqs : h'.mrqs = h.mrqs)
    (hdone : h'.done = h.done) : Retried h' := by
  constructor
  · rw [hdone]
    exact hs.bounded
  · rw [hmrqs, hdone]
    exact hs.queued
  · rw [hmrqs]
    exact hs.once

theorem Retried.giveBack {h : Host} (hs : Retried h) {tag : Tag} {mrq : Mrq}
    (hmrq : h.mrqs tag = some mrq) {c : Completion} (hc : c.mrq = mrq) :
    Retried (h.giveBack tag c) := by
  have hdone : (h.giveBack tag c).done = h.done ++ [c] := rfl
  have hslot : ∀ t m, (h.giveBack tag c).mrqs t = some m → t ≠ tag ∧ h.mrqs t = some m := by
    intro t m hm
    rw [Host.mrqs_giveBack] at hm
    by_cases ht : t = tag
    · rw [ht, Function.update_self] at hm
      cases hm
    · rw [Function.update_of_ne ht] at hm
      exact ⟨ht, hm⟩
  refine ⟨fun id => ?_, fun t m hm => ?_, fun t t' m m' hm hm' => ?_⟩
  · rw [hdone, failures_append]
    by_cases hid : c.mrq.id = id ∧ c.err ≠ 0
    · have hle : failures id h.done ≤ mmcCqeRetries := by
        rw [← hid.1, hc]
        exact hs.queued tag mrq hmrq
      rw [if_pos hid]
      exact Nat.succ_le_succ hle
    · rw [if_neg hid]
      exact hs.bounded id
  · obtain ⟨ht, hold⟩ := hslot t m hm
    have hid : ¬(c.mrq.id = m.id ∧ c.err ≠ 0) := fun h =>
      ht (hs.once t tag m mrq hold hmrq (hc ▸ h.1.symm))
    rw [hdone, failures_append, if_neg hid]
    exact hs.queued t m hold
  · exact hs.once t t' m m' (hslot t m hm).2 (hslot t' m' hm').2

theorem Retried.submit {h : Host} (hs : Retried h) {mrq : Mrq} (hhalt : h.recoveryHalt = false)
    (hnew : ∀ tag, ∀ old ∈ h.mrqs tag, old.id ≠ mrq.id)
    (hrequeued : Requeued mrq.id 0 h.done) : Retried (h.submit mrq).1 := by
  have hdone : (h.submit mrq).1.done = h.done := by
    rw [Host.submit, if_neg (by simp [hhalt])]
    rfl
  have hslot : ∀ t m, (h.submit mrq).1.mrqs t = some m →
      t = cqhciTag mrq ∧ m = mrq ∨ h.mrqs t = some m := by
    intro t m hm
    rw [Host.mrqs_submit hhalt] at hm
    by_cases ht : t = cqhciTag mrq
    · rw [ht, Function.update_self] at hm
      exact .inl ⟨ht, (Option.some.inj hm).symm⟩
    · rw [Function.update_of_ne ht] at hm
      exact .inr hm
  have hfailures : failures mrq.id h.done ≤ mmcCqeRetries := by
    have := failures_le_of_requeued (Nat.zero_le _) hrequeued
    omega
  refine ⟨by rw [hdone]; exact hs.bounded, fun t m hm => ?_, fun t t' m m' hm hm' hid => ?_⟩
  · rw [hdone]
    rcases hslot t m hm with ⟨-, rfl⟩ | hold
    · exact hfailures
    · exact hs.queued t m hold
  · rcases hslot t m hm with ⟨rfl, rfl⟩ | hold <;> rcases hslot t' m' hm' with ⟨rfl, rfl⟩ | hold'
    · rfl
    · exact absurd hid.symm (hnew t' m' hold')
    · exact absurd hid (hnew t m hold)
    · exact hs.once t t' m m' hold hold' hid

theorem Retried.next (hst : Staged s) (hs : Retried s.host) (ha : Reissued s a)
    (hnext : queueSystem.next s a = some s') : Retried s'.host := by
  cases effect_of_next hst.quiet hnext with
  | still _ hsame =>
    refine hs.congr ?_ hsame.done
    funext tag
    rw [Host.mrqs, hsame.slot, Host.mrqs]
  | alerted _ halert => exact hs.congr halert.mrqs halert.done
  | @accepted mrq hissuing hhalt =>
    have hok := (ha.resolve_left (by simp [hhalt])) mrq (by simp [hissuing])
    exact hs.submit hhalt hok.2.1 hok.2.2
  | completed tcn =>
    refine Host.completeIrq_induction (P := Retried) hs ?_ (fun h hh => hh.congr rfl rfl) tcn
    intro h tag hh
    rcases h.finishMrq_cases tag with ⟨-, heq⟩ | ⟨mrq, hmrq, ⟨-, heq⟩ | ⟨-, heq⟩⟩
    · rwa [heq]
    · rw [heq]
      exact hh.congr (Host.mrqs_setFlags h tag _) rfl
    · rw [heq]
      exact hh.giveBack hmrq (mrq_finishedWith mrq)
  | started => exact hs.congr rfl rfl
  | @recovered i hi hrecovery =>
    change Retried (s.host.recoverMrq ⟨i, hi⟩)
    rcases s.host.recoverMrq_cases ⟨i, hi⟩ with ⟨-, heq⟩ | ⟨mrq, hmrq, heq⟩
    · rwa [heq]
    · rw [heq]
      exact hs.giveBack hmrq (mrq_recoveredWith mrq _)
  | finished => exact hs.congr rfl rfl

/-! ### The bound -/

theorem retried_init : Retried queueSystem.init.host :=
  ⟨fun _ => Nat.zero_le _, fun tag mrq h => (by cases h), fun tag tag' mrq mrq' h => (by cases h)⟩

/-- All the invariants of a run in which the block layer issues the requests. -/
theorem invariants_of_reissued (hrun : queueSystem.run as = some s)
    (hre : queueSystem.Obeys Reissued queueSystem.init as) :
    Staged s ∧ Accounted s ∧ Progress s ∧ Retried s.host :=
  queueSystem.invariant_of_obeys
    (I := fun s => Staged s ∧ Accounted s ∧ Progress s ∧ Retried s.host)
    (fun _ _ _ ⟨hst, hac, hpr, hrt⟩ ha hnext =>
      ⟨hst.next hnext, (accounted_next_iff hst hac hnext).mpr ha.fillsFree, hpr.next hst hnext,
        hrt.next hst ha hnext⟩)
    ⟨staged_init, accounted_init, progress_init, retried_init⟩ hre hrun

/-- Every completion is one of an accepted request. -/
theorem Accounted.mem_accepted (hs : Accounted s) {c : Completion} (hc : c ∈ s.host.done) :
    c.mrq ∈ s.accepted := by
  have hmem : c.mrq ∈ (s.accepted : Multiset Mrq) := by
    rw [hs.conserved]
    exact Multiset.mem_add.mpr (.inl (Multiset.mem_coe.mpr (List.mem_map_of_mem hc)))
  exact Multiset.mem_coe.mp hmem

theorem count_errored_ids (s : State) (id : ℕ) :
    (s.errored.map (·.mrq.id)).count id = failures id s.host.done := by
  rw [List.count_eq_countP, List.countP_map, State.errored, List.countP_filter, failures]
  refine List.countP_congr fun c _ => ?_
  simp

/-- **Bound on the recoveries.** As long as the block layer issues a request again only after it has
put it back, and into a free slot, there are at most `MMC_CQE_RETRIES + 1` recoveries for each
request that was accepted. -/
theorem recoveries_le (hrun : queueSystem.run as = some s)
    (hre : queueSystem.Obeys Reissued queueSystem.init as) :
    s.recoveries ≤ (mmcCqeRetries + 1) * (s.accepted.map (·.id)).toFinset.card := by
  obtain ⟨-, hac, hpr, hrt⟩ := invariants_of_reissued hrun hre
  set ids := s.errored.map (·.mrq.id) with hids
  have hsub : ids.toFinset ⊆ (s.accepted.map (·.id)).toFinset := by
    intro id hid
    obtain ⟨c, hc, rfl⟩ := List.mem_map.mp (List.mem_toFinset.mp hid)
    exact List.mem_toFinset.mpr
      (List.mem_map_of_mem (hac.mem_accepted (List.mem_of_mem_filter hc)))
  calc s.recoveries
    _ ≤ s.errored.length := hpr.recoveries_le
    _ = ∑ id ∈ ids.toFinset, ids.count id := by
        rw [List.sum_toFinset_count_eq_length, hids, List.length_map]
    _ ≤ ∑ _id ∈ ids.toFinset, (mmcCqeRetries + 1) :=
        Finset.sum_le_sum fun id _ => by
          rw [count_errored_ids]
          exact hrt.bounded id
    _ = (mmcCqeRetries + 1) * ids.toFinset.card := by
        rw [Finset.sum_const, smul_eq_mul, mul_comm]
    _ ≤ (mmcCqeRetries + 1) * (s.accepted.map (·.id)).toFinset.card :=
        Nat.mul_le_mul_left _ (Finset.card_le_card hsub)

theorem recoveries_le_sampleRun :
    (afterRun sampleRun).recoveries ≤
      (mmcCqeRetries + 1) * ((afterRun sampleRun).accepted.map (·.id)).toFinset.card :=
  recoveries_le (run_eq_afterRun (by decide +kernel)) (by decide +kernel)

end LinuxDriver.Cqhci
