import LinuxDriver.Kernel
import LinuxDriver.MachineInt
import LinuxDriver.Mmc.Retune

/-!
# Requests that are waited for

`mmc_wait_for_req` starts a request and waits until it is done. It holds re-tuning meanwhile, and
tries again as long as the request fails and has retries left. A request that `mmc_mrq_prep` rejects
is not started, but it is done with an error like one that failed, and if it has retries left then
the retry passes it to the host unchecked.

Re-tuning before a request and the interruption of a sanitize send requests of their own. So the
functions are defined over a `Level`, which says how both are done. Requests that are part of a
tuning do not tune, those of an interruption may tune, and other requests may do both.

## Main definitions

* `Mrq`, `Status`: a request, and what is written to it.
* `HostCaps`, `World`: what is read of a host and its card, and what changes.
* `ReqAttempt`: all that the environment decides about one attempt to carry out a request.
* `Level`, `Level.mmcWaitForReq`.
* `Accepts`: the requests that `mmc_mrq_prep` accepts.
* `Quiet`, `Submits`: what a part of the functions does to the holds and to the submissions.

## Main results

* `Level.mmcWaitForReq_submits`: the holds are balanced, and the attempts are bounded.
* `Level.mmcWaitForReq_log_of_not_accepts`, `Level.mmcWaitForReq_submitted`: when a request that
  `mmc_mrq_prep` rejects is not submitted, and when it is.
-/

namespace LinuxDriver.Mmc

/-! ### Requests -/

def mmcSendStatusOp : ℕ := 13
def mmcSendTuningBlock : ℕ := 19
def mmcSendTuningBlockHs200 : ℕ := 21
def sdIoRwDirect : ℕ := 52
def sdIoRwExtended : ℕ := 53

def sdioCccrAbort : ℕ := 0x06
def sdioCccrSuspend : ℕ := 0x0c

/-- `R1_SPI_ILLEGAL_COMMAND` -/
def r1SpiIllegalCommand : ℕ := 1 <<< 2

/-- `MMC_CMD_RETRIES` -/
def mmcCmdRetries : ℕ := 3

/-- `mmc_data`: the size and number of the blocks, and the lengths of the scatter list. -/
structure MrqData where
  blksz : ℕ
  blocks : ℕ
  sg : List ℕ
  deriving DecidableEq

/-- `mmc_request`, without what is written to it. `sbc` and `stop` are whether there is such a
command. -/
structure Mrq where
  opcode : ℕ
  arg : ℕ
  sanitizeBusy : Bool
  sbc : Bool
  data : Option MrqData
  stop : Bool
  deriving DecidableEq

/-- What is written to a request: the error of its command, the retries left, the first word of the
response, and the errors of the other parts. -/
structure Status where
  error : ℤ
  retries : ℕ
  resp0 : ℕ
  sbcError : ℤ
  dataError : ℤ
  stopError : ℤ

/-- What the functions read of a host and its card. `cardBusy` is whether there is such an
operation, and `hpiEn`, `hpi` and `hpiCmd` are those of `ext_csd`. -/
structure HostCaps where
  maxBlkSize : ℕ
  maxBlkCount : ℕ
  maxReqSize : ℕ
  spi : Bool
  cardBusy : Bool
  hpiEn : Bool
  hpi : Bool
  hpiCmd : ℕ
  rca : ℕ

/-- `mmc_mrq_prep`: the request, and the error. -/
def mmcMrqPrep (host : HostCaps) (mrq : Mrq) (st : Status) : Status × ℤ :=
  let st := { st with error := 0 }
  let st := if mrq.sbc then { st with sbcError := 0 } else st
  match mrq.data with
  | none => (st, 0)
  | some data =>
    if host.maxBlkSize < data.blksz ∨ host.maxBlkCount < data.blocks ∨
        host.maxReqSize < data.blocks * data.blksz % 2 ^ 32 then (st, -einval)
    else if data.sg.sum % 2 ^ 32 ≠ data.blocks * data.blksz % 2 ^ 32 then (st, -einval)
    else
      let st := { st with dataError := 0 }
      let st := if mrq.stop then { st with stopError := 0 } else st
      (st, 0)

/-- The request passes the checks of `mmc_mrq_prep`. -/
def Accepts (host : HostCaps) (mrq : Mrq) : Prop :=
  ∀ data ∈ mrq.data, data.blksz ≤ host.maxBlkSize ∧ data.blocks ≤ host.maxBlkCount ∧
    data.blocks * data.blksz % 2 ^ 32 ≤ host.maxReqSize ∧
    data.sg.sum % 2 ^ 32 = data.blocks * data.blksz % 2 ^ 32

theorem mmcMrqPrep_snd_eq_zero_iff {host : HostCaps} {mrq : Mrq} {st : Status} :
    (mmcMrqPrep host mrq st).2 = 0 ↔ Accepts host mrq := by
  have hne : -einval ≠ 0 := by decide
  unfold mmcMrqPrep Accepts
  cases mrq.data with
  | none => simp
  | some data =>
    simp only [apply_ite Prod.snd, Option.mem_def, Option.some.injEq, forall_eq']
    split_ifs with hsize hsum
    · exact iff_of_false hne fun h => by omega
    · exact iff_of_false hne fun h => hsum h.2.2.2
    · exact iff_of_true rfl (by omega)

theorem mmcMrqPrep_snd_of_not_accepts {host : HostCaps} {mrq : Mrq} (st : Status)
    (h : ¬Accepts host mrq) : (mmcMrqPrep host mrq st).2 = -einval := by
  have hne : (mmcMrqPrep host mrq st).2 ≠ 0 := fun hzero => h (mmcMrqPrep_snd_eq_zero_iff.mp hzero)
  revert hne
  unfold mmcMrqPrep
  cases mrq.data with
  | none => exact fun hne => absurd rfl hne
  | some data =>
    simp only [apply_ite Prod.snd]
    split_ifs
    · exact fun _ => rfl
    · exact fun _ => rfl
    · exact fun hne => absurd rfl hne

theorem mmcMrqPrep_retries (host : HostCaps) (mrq : Mrq) (st : Status) :
    (mmcMrqPrep host mrq st).1.retries = st.retries := by
  unfold mmcMrqPrep
  cases mrq.data with
  | none => dsimp only; split <;> rfl
  | some data => dsimp only; split_ifs <;> rfl

theorem accepts_of_data_eq_none {host : HostCaps} {mrq : Mrq} (h : mrq.data = none) :
    Accepts host mrq := by
  simp [Accepts, h]

/-- `sdio_is_io_busy` -/
def sdioIsIoBusy (opcode arg : ℕ) : Bool :=
  let addr := (arg >>> 9) &&& 0x1FFFF
  opcode = sdIoRwExtended ||
    opcode = sdIoRwDirect && !(addr = sdioCccrAbort || addr = sdioCccrSuspend)

/-! ### The world of a request -/

/-- Whose request it is: of a tuning, of the interruption of a sanitize, or of a caller. -/
inductive Owner
  | tuning
  | hpi
  | caller
  deriving DecidableEq

/-- A call of `host->ops->request`. -/
structure Submission where
  owner : Owner
  mrq : Mrq
  deriving DecidableEq

/-- What changes while a request is carried out: the state of the re-tuning, whether the card is
flagged as removed, and the calls of `host->ops->request` so far. -/
structure World where
  retune : RetuneHost
  removed : Bool
  log : List Submission

/-- What the host reports about a request. -/
structure Response where
  error : ℤ
  resp0 : ℕ
  sbcError : ℤ
  dataError : ℤ
  stopError : ℤ

/-- What the environment decides about an attempt: whether the re-tuning timer expires before it,
what a tuning does, the answers of `card_busy`, the response, whether the card is flagged as removed
by the end of it, and what the interruption of a sanitize does. -/
structure ReqAttempt (τ η : Type) where
  timer : Bool
  tuning : τ
  busy : ℕ → Bool
  response : Response
  removal : Bool
  hpi : η

/-- The two worlds have the same holds, and between them only requests of the given owners were
submitted that `mmc_mrq_prep` accepts. -/
structure Quiet (host : HostCaps) (owners : Set Owner) (w w' : World) : Prop where
  hold : w'.retune.holdRetune = w.retune.holdRetune
  log : ∃ new, w'.log = w.log ++ new ∧
    ∀ s ∈ new, s.owner ∈ owners ∧ Accepts host s.mrq

/-- How requests are carried out: whose they are, and what re-tuning and the interruption of a
sanitize do before and after them, with requests of other owners. -/
structure Level (host : HostCaps) (τ η : Type) where
  owner : Owner
  inner : Set Owner
  tune : τ → World → World × ℤ
  interruptHpi : η → World → World × ℤ
  owner_notMem : owner ∉ inner
  tune_quiet : ∀ t w, Quiet host inner w (tune t w).1
  interruptHpi_quiet : ∀ i w, Quiet host inner w (interruptHpi i w).1

/-! ### The functions -/

/-- Apply a function of the re-tuning. -/
def World.mapRetune (w : World) (f : RetuneHost → RetuneHost) : World :=
  { w with retune := f w.retune }

@[simp] theorem World.mapRetune_retune (w : World) (f : RetuneHost → RetuneHost) :
    (w.mapRetune f).retune = f w.retune := rfl

@[simp] theorem World.mapRetune_log (w : World) (f : RetuneHost → RetuneHost) :
    (w.mapRetune f).log = w.log := rfl

@[simp] theorem World.mapRetune_removed (w : World) (f : RetuneHost → RetuneHost) :
    (w.mapRetune f).removed = w.removed := rfl

/-- `mmc_request_done`: the re-tuning that a CRC error asks for, and the retries. -/
def mmcRequestDone (host : HostCaps) (mrq : Mrq) (w : World) (st : Status) : World × Status :=
  let crc := st.error = -eilseq ∨ mrq.sbc ∧ st.sbcError = -eilseq ∨
    mrq.data.isSome ∧ st.dataError = -eilseq ∨ mrq.stop ∧ st.stopError = -eilseq
  let w :=
    if mrq.opcode ≠ mmcSendTuningBlock ∧ mrq.opcode ≠ mmcSendTuningBlockHs200 ∧ crc then
      w.mapRetune mmcRetuneNeeded
    else w
  let st :=
    if st.error ≠ 0 ∧ st.retries ≠ 0 ∧ host.spi ∧ st.resp0 &&& r1SpiIllegalCommand ≠ 0 then
      { st with retries := 0 }
    else st
  (w, st)

/-- The loop that waits for a busy card, before poll `i`: the value of `tries` after it. -/
def waitBusy (busy : ℕ → Bool) : ℕ → ℕ → ℕ
  | _, 0 => 0
  | i, tries + 1 => if busy i then waitBusy busy (i + 1) tries else tries + 1

namespace Level

variable {host : HostCaps} {τ η : Type} (L : Level host τ η)

/-- `mmc_retune` -/
def mmcRetune (t : τ) (w : World) : World × ℤ :=
  let begun := mmcRetuneBegin w.retune
  if begun.2 then
    let tuned := L.tune t { w with retune := begun.1 }
    (tuned.1.mapRetune mmcRetuneEnd, tuned.2)
  else ({ w with retune := begun.1 }, 0)

/-- `__mmc_start_request` -/
def startRequest (mrq : Mrq) (a : ReqAttempt τ η) (w : World) (st : Status) : World × Status :=
  let w := if a.timer then w.mapRetune mmcRetuneNeeded else w
  let retuned := L.mmcRetune a.tuning w
  let w := retuned.1
  if retuned.2 ≠ 0 then mmcRequestDone host mrq w { st with error := retuned.2 }
  else if sdioIsIoBusy mrq.opcode mrq.arg ∧ host.cardBusy ∧ waitBusy a.busy 0 500 = 0 then
    mmcRequestDone host mrq w { st with error := -ebusy }
  else
    let w := { w with log := w.log ++ [⟨L.owner, mrq⟩] }
    mmcRequestDone host mrq w
      { st with
        error := a.response.error
        resp0 := a.response.resp0
        sbcError := a.response.sbcError
        dataError := a.response.dataError
        stopError := a.response.stopError }

/-- `mmc_start_request`: the request, and the error. -/
def mmcStartRequest (mrq : Mrq) (a : ReqAttempt τ η) (w : World) (st : Status) :
    (World × Status) × ℤ :=
  let w := w.mapRetune mmcRetuneHold
  if w.removed then ((w, st), -enomedium)
  else
    let prep := mmcMrqPrep host mrq st
    if prep.2 ≠ 0 then ((w, prep.1), prep.2) else (L.startRequest mrq a w prep.1, 0)

/-- `__mmc_start_req` -/
def startReq (mrq : Mrq) (a : ReqAttempt τ η) (w : World) (st : Status) : World × Status :=
  let started := L.mmcStartRequest mrq a w st
  if started.2 ≠ 0 then (started.1.1, { started.1.2 with error := started.2 }) else started.1

/-- The part of `mmc_wait_for_req_done` that interrupts a sanitize: whether it was interrupted. -/
def interruptSanitize (mrq : Mrq) (a : ReqAttempt τ η) (w : World) (st : Status) : World × Bool :=
  if mrq.sanitizeBusy ∧ st.error = -etimedout then
    let interrupted := L.interruptHpi a.hpi w
    (interrupted.1, interrupted.2 = 0)
  else (w, false)

theorem mmcRequestDone_retries_le (host : HostCaps) (mrq : Mrq) (w : World) (st : Status) :
    (mmcRequestDone host mrq w st).2.retries ≤ st.retries := by
  unfold mmcRequestDone
  dsimp only
  split
  · exact Nat.zero_le _
  · exact le_rfl

theorem startRequest_retries_le (mrq : Mrq) (a : ReqAttempt τ η) (w : World) (st : Status) :
    (L.startRequest mrq a w st).2.retries ≤ st.retries := by
  unfold startRequest
  dsimp only
  split_ifs <;> exact mmcRequestDone_retries_le ..

/-- The loop of `mmc_wait_for_req_done` and the release after it, with the number of the attempt
that it waits for. -/
def waitLoop (mrq : Mrq) (tape : ℕ → ReqAttempt τ η) (k : ℕ) (w : World) (st : Status) :
    World × Status :=
  let w := { w with removed := w.removed || (tape k).removal }
  let interrupted := L.interruptSanitize mrq (tape k) w st
  let w := interrupted.1
  if interrupted.2 then (w.mapRetune mmcRetuneRelease, { st with error := 0 })
  else if h : st.error = 0 ∨ st.retries = 0 ∨ w.removed then (w.mapRetune mmcRetuneRelease, st)
  else
    let w := w.mapRetune mmcRetuneRecheck
    let st' := { st with retries := st.retries - 1, error := 0 }
    let started := L.startRequest mrq (tape (k + 1)) w st'
    waitLoop mrq tape (k + 1) started.1 started.2
termination_by st.retries
decreasing_by
  have hpos : 0 < st.retries := Nat.pos_of_ne_zero fun hzero => h (.inr (.inl hzero))
  exact (L.startRequest_retries_le ..).trans_lt (Nat.sub_lt hpos Nat.one_pos)

/-- `mmc_wait_for_req_done` -/
def mmcWaitForReqDone (mrq : Mrq) (tape : ℕ → ReqAttempt τ η) (w : World) (st : Status) :
    World × Status :=
  L.waitLoop mrq tape 0 w st

/-- `mmc_wait_for_req`, without `cap_cmd_during_tfr`. -/
def mmcWaitForReq (mrq : Mrq) (tape : ℕ → ReqAttempt τ η) (w : World) (st : Status) :
    World × Status :=
  let started := L.startReq mrq (tape 0) w st
  L.mmcWaitForReqDone mrq tape started.1 started.2

end Level

/-! ### Balance -/

theorem mmcRequestDone_retune (host : HostCaps) (mrq : Mrq) (w : World) (st : Status) :
    (mmcRequestDone host mrq w st).1.retune.holdRetune = w.retune.holdRetune := by
  unfold mmcRequestDone
  dsimp only
  split
  · rw [World.mapRetune_retune, mmcRetuneNeeded_eq]
  · rfl

theorem mmcRequestDone_log (host : HostCaps) (mrq : Mrq) (w : World) (st : Status) :
    (mmcRequestDone host mrq w st).1.log = w.log := by
  unfold mmcRequestDone
  dsimp only
  split <;> rfl

/-- Between the two worlds, the requests that were submitted are the given one, as one of at most
`n`, or requests of inner owners that `mmc_mrq_prep` accepts. -/
structure Submits (host : HostCaps) (inner : Set Owner) (own : Submission) (n : ℕ)
    (w w' : World) : Prop where
  log : ∃ new, w'.log = w.log ++ new ∧ new.countP (fun s => s.owner = own.owner) ≤ n ∧
    ∀ s ∈ new, s = own ∨ s.owner ∈ inner ∧ Accepts host s.mrq

namespace Submits

variable {host : HostCaps} {inner : Set Owner} {own : Submission} {m n : ℕ} {w w' w'' : World}

theorem of_log_eq (h : w'.log = w.log) : Submits host inner own 0 w w' :=
  ⟨[], by simp [h]⟩

theorem of_log_eq_snoc (h : w'.log = w.log ++ [own]) : Submits host inner own 1 w w' :=
  ⟨[own], by simp [h]⟩

theorem trans (h : Submits host inner own m w w') (h' : Submits host inner own n w' w'') :
    Submits host inner own (m + n) w w'' := by
  obtain ⟨new, hlog, hcount, hnew⟩ := h.log
  obtain ⟨new', hlog', hcount', hnew'⟩ := h'.log
  refine ⟨new ++ new', by rw [hlog', hlog, List.append_assoc], ?_, fun s hs => ?_⟩
  · rw [List.countP_append]
    exact Nat.add_le_add hcount hcount'
  · exact (List.mem_append.mp hs).elim (hnew s) (hnew' s)

theorem mono (h : Submits host inner own m w w') (hmn : m ≤ n) : Submits host inner own n w w' := by
  obtain ⟨new, hlog, hcount, hnew⟩ := h.log
  exact ⟨new, hlog, hcount.trans hmn, hnew⟩

/-- What inner owners submit counts nothing. -/
theorem of_quiet (h : Quiet host inner w w') (hown : own.owner ∉ inner) :
    Submits host inner own 0 w w' := by
  obtain ⟨new, hlog, hnew⟩ := h.log
  refine ⟨new, hlog, ?_, fun s hs => .inr (hnew s hs)⟩
  rw [Nat.le_zero, List.countP_eq_zero]
  intro s hs heq
  exact hown (of_decide_eq_true heq ▸ (hnew s hs).1)

/-- The end of a request submits nothing. -/
theorem requestDone {u : World} {mrq : Mrq} {st : Status} (h : Submits host inner own n w u) :
    Submits host inner own n w (mmcRequestDone host mrq u st).1 :=
  h.trans (of_log_eq (mmcRequestDone_log host mrq u st))

theorem mapRetune {u : World} (h : Submits host inner own n w u) (f : RetuneHost → RetuneHost) :
    Submits host inner own n w (u.mapRetune f) := by
  have hend : Submits host inner own 0 u (u.mapRetune f) := of_log_eq rfl
  exact h.trans hend

end Submits

namespace Level

variable {host : HostCaps} {τ η : Type} (L : Level host τ η)

/-- Re-tuning keeps the holds, whether it tunes or not. -/
theorem mmcRetune_quiet (t : τ) (w : World) : Quiet host L.inner w (L.mmcRetune t w).1 := by
  have hhold : (mmcRetuneBegin w.retune).1.holdRetune = w.retune.holdRetune := by
    rw [mmcRetuneBegin_fst]
  unfold mmcRetune
  dsimp only
  split
  · obtain ⟨htuned, hlog⟩ := L.tune_quiet t { w with retune := (mmcRetuneBegin w.retune).1 }
    exact ⟨htuned.trans hhold, hlog⟩
  · exact ⟨hhold, [], by simp⟩

/-- An attempt keeps the holds, and submits the request at most once. -/
theorem startRequest_submits (mrq : Mrq) (a : ReqAttempt τ η) (w : World) (st : Status) :
    (L.startRequest mrq a w st).1.retune.holdRetune = w.retune.holdRetune ∧
      Submits host L.inner ⟨L.owner, mrq⟩ 1 w (L.startRequest mrq a w st).1 := by
  have htimer : ∀ u, u = (if a.timer then w.mapRetune mmcRetuneNeeded else w) →
      u.retune.holdRetune = w.retune.holdRetune ∧ u.log = w.log := by
    rintro u rfl
    split
    · exact ⟨by rw [World.mapRetune_retune, mmcRetuneNeeded_eq], rfl⟩
    · exact ⟨rfl, rfl⟩
  unfold startRequest
  dsimp only
  generalize hu : (if a.timer then w.mapRetune mmcRetuneNeeded else w) = u
  obtain ⟨huhold, hulog⟩ := htimer u hu.symm
  have hquiet := L.mmcRetune_quiet a.tuning u
  have hretuned : Submits host L.inner ⟨L.owner, mrq⟩ 0 w (L.mmcRetune a.tuning u).1 :=
    (Submits.of_log_eq hulog).trans (.of_quiet hquiet L.owner_notMem)
  have hhold := hquiet.hold.trans huhold
  split_ifs
  · exact ⟨(mmcRequestDone_retune ..).trans hhold, hretuned.requestDone.mono zero_le_one⟩
  · exact ⟨(mmcRequestDone_retune ..).trans hhold, hretuned.requestDone.mono zero_le_one⟩
  · refine ⟨(mmcRequestDone_retune ..).trans hhold, ?_⟩
    exact (hretuned.trans (.of_log_eq_snoc rfl)).requestDone

theorem interruptSanitize_quiet (mrq : Mrq) (a : ReqAttempt τ η) (w : World) (st : Status) :
    Quiet host L.inner w (L.interruptSanitize mrq a w st).1 := by
  unfold interruptSanitize
  split
  · exact L.interruptHpi_quiet a.hpi w
  · exact ⟨rfl, [], by simp⟩

/-- **The loop gives up one hold.** It submits the request at most once for each retry left. -/
theorem waitLoop_submits (mrq : Mrq) (tape : ℕ → ReqAttempt τ η) (k : ℕ) (w : World) (st : Status)
    (hpos : 0 < w.retune.holdRetune) :
    (L.waitLoop mrq tape k w st).1.retune.holdRetune + 1 = w.retune.holdRetune ∧
      Submits host L.inner ⟨L.owner, mrq⟩ st.retries w (L.waitLoop mrq tape k w st).1 := by
  induction hn : st.retries using Nat.strong_induction_on generalizing k w st with
  | _ n ih =>
    rw [waitLoop]
    dsimp only
    generalize hu : { w with removed := w.removed || (tape k).removal } = u
    have huhold : u.retune = w.retune := by rw [← hu]
    have hulog : u.log = w.log := by rw [← hu]
    have hquiet := L.interruptSanitize_quiet mrq (tape k) u st
    generalize L.interruptSanitize mrq (tape k) u st = i at hquiet
    have hhold : i.1.retune.holdRetune = w.retune.holdRetune := hquiet.hold.trans (by rw [huhold])
    have hwaited : Submits host L.inner ⟨L.owner, mrq⟩ 0 w i.1 :=
      (Submits.of_log_eq hulog).trans (.of_quiet hquiet L.owner_notMem)
    have hrelease :
        (i.1.mapRetune mmcRetuneRelease).retune.holdRetune + 1 = w.retune.holdRetune := by
      rw [World.mapRetune_retune, mmcRetuneRelease_of_pos (hhold ▸ hpos)]
      dsimp only
      omega
    split_ifs with hinterrupted hdone
    · exact ⟨hrelease, (hwaited.mapRetune _).mono (Nat.zero_le n)⟩
    · exact ⟨hrelease, (hwaited.mapRetune _).mono (Nat.zero_le n)⟩
    · generalize hst' : { st with retries := st.retries - 1, error := 0 } = st'
      generalize hv : i.1.mapRetune mmcRetuneRecheck = v
      obtain ⟨hstart, hsubmits⟩ := L.startRequest_submits mrq (tape (k + 1)) v st'
      have hretries := L.startRequest_retries_le mrq (tape (k + 1)) v st'
      generalize L.startRequest mrq (tape (k + 1)) v st' = r at hstart hsubmits hretries
      have hvhold : v.retune.holdRetune = w.retune.holdRetune := by
        rw [← hv, World.mapRetune_retune, mmcRetuneRecheck_eq]
        exact hhold
      have hlt : r.2.retries < n := by
        rw [← hst'] at hretries
        dsimp only at hretries
        omega
      obtain ⟨hloop, hrest⟩ := ih r.2.retries hlt (k + 1) r.1 r.2 (by omega) rfl
      refine ⟨by omega, ?_⟩
      have hrecheck : Submits host L.inner ⟨L.owner, mrq⟩ 0 w v :=
        hv ▸ hwaited.mapRetune _
      exact ((hrecheck.trans hsubmits).trans hrest).mono (by omega)

/-- The start of a request takes a hold, whether or not the request is refused. -/
theorem startReq_submits (mrq : Mrq) (a : ReqAttempt τ η) (w : World) (st : Status) :
    (L.startReq mrq a w st).1.retune.holdRetune = w.retune.holdRetune + 1 ∧
      (L.startReq mrq a w st).2.retries ≤ st.retries ∧
      Submits host L.inner ⟨L.owner, mrq⟩ 1 w (L.startReq mrq a w st).1 := by
  have hhold : (w.mapRetune mmcRetuneHold).retune.holdRetune = w.retune.holdRetune + 1 := by
    rw [World.mapRetune_retune, mmcRetuneHold_eq]
  have hheld : Submits host L.inner ⟨L.owner, mrq⟩ 0 w (w.mapRetune mmcRetuneHold) :=
    .of_log_eq rfl
  have hprep : (mmcMrqPrep host mrq st).1.retries = st.retries := mmcMrqPrep_retries host mrq st
  unfold startReq mmcStartRequest
  dsimp only
  split
  · have hne : -enomedium ≠ 0 := by decide
    rw [if_pos hne]
    exact ⟨hhold, le_rfl, hheld.mono zero_le_one⟩
  · by_cases hrefused : (mmcMrqPrep host mrq st).2 ≠ 0
    · rw [if_pos hrefused, if_pos hrefused]
      exact ⟨hhold, hprep.le, hheld.mono zero_le_one⟩
    · rw [if_neg hrefused, if_neg (not_not.mpr rfl)]
      obtain ⟨hstart, hsubmits⟩ := L.startRequest_submits mrq a (w.mapRetune mmcRetuneHold)
        (mmcMrqPrep host mrq st).1
      exact ⟨hstart.trans hhold, (L.startRequest_retries_le ..).trans hprep.le,
        hheld.trans hsubmits⟩

/-- **Waiting for a request** keeps the holds, and submits the request at most once more than it
has retries. -/
theorem mmcWaitForReq_submits (mrq : Mrq) (tape : ℕ → ReqAttempt τ η) (w : World) (st : Status) :
    (L.mmcWaitForReq mrq tape w st).1.retune.holdRetune = w.retune.holdRetune ∧
      Submits host L.inner ⟨L.owner, mrq⟩ (st.retries + 1) w
        (L.mmcWaitForReq mrq tape w st).1 := by
  obtain ⟨hhold, hretries, hstart⟩ := L.startReq_submits mrq (tape 0) w st
  unfold mmcWaitForReq mmcWaitForReqDone
  dsimp only
  generalize L.startReq mrq (tape 0) w st = r at hhold hretries hstart
  obtain ⟨hloop, hrest⟩ := L.waitLoop_submits mrq tape 0 r.1 r.2 (by omega)
  exact ⟨by omega, (hstart.trans hrest).mono (by omega)⟩

/-! ### Requests that are refused -/

/-- The start of a request that `mmc_mrq_prep` rejects ends it with an error that is no timeout. -/
theorem startReq_of_not_accepts {mrq : Mrq} (hnot : ¬Accepts host mrq) (a : ReqAttempt τ η) (w : World)
    (st : Status) :
    ∃ st', L.startReq mrq a w st = (w.mapRetune mmcRetuneHold, st') ∧ st'.retries = st.retries ∧
      st'.error ≠ 0 ∧ st'.error ≠ -etimedout := by
  have hrefused : ∃ st' err,
      L.mmcStartRequest mrq a w st = ((w.mapRetune mmcRetuneHold, st'), err) ∧
      st'.retries = st.retries ∧ err ≠ 0 ∧ err ≠ -etimedout := by
    have heinval : -einval ≠ 0 ∧ -einval ≠ -etimedout := by decide
    have henomedium : -enomedium ≠ 0 ∧ -enomedium ≠ -etimedout := by decide
    have hprep := mmcMrqPrep_snd_of_not_accepts st hnot
    unfold mmcStartRequest
    dsimp only
    split
    · exact ⟨_, _, rfl, rfl, henomedium⟩
    · rw [hprep, if_pos heinval.1]
      exact ⟨_, _, rfl, mmcMrqPrep_retries host mrq st, heinval⟩
  obtain ⟨st', err, hstart, hretries, hne, herror⟩ := hrefused
  refine ⟨{ st' with error := err }, ?_, hretries, hne, herror⟩
  rw [startReq, hstart]
  exact if_pos hne

/-- What the loop does first if there is no sanitize to interrupt. -/
theorem waitLoop_of_ne_etimedout (mrq : Mrq) (tape : ℕ → ReqAttempt τ η) (k : ℕ) (w : World)
    {st : Status} (herror : st.error ≠ -etimedout) :
    L.waitLoop mrq tape k w st =
      let w := { w with removed := w.removed || (tape k).removal }
      if st.error = 0 ∨ st.retries = 0 ∨ w.removed then (w.mapRetune mmcRetuneRelease, st)
      else
        let started := L.startRequest mrq (tape (k + 1)) (w.mapRetune mmcRetuneRecheck)
          { st with retries := st.retries - 1, error := 0 }
        L.waitLoop mrq tape (k + 1) started.1 started.2 := by
  rw [waitLoop]
  simp only [interruptSanitize, herror, and_false, if_false, dite_eq_ite, Bool.false_eq_true]

/-- Without a retry, a request that `mmc_mrq_prep` rejects is not submitted. -/
theorem mmcWaitForReq_log_of_not_accepts {mrq : Mrq} {w : World} {st : Status}
    (hnot : ¬Accepts host mrq) (h : w.removed = true ∨ st.retries = 0)
    (tape : ℕ → ReqAttempt τ η) : (L.mmcWaitForReq mrq tape w st).1.log = w.log := by
  obtain ⟨st', hstart, hretries, -, herror⟩ := L.startReq_of_not_accepts hnot (tape 0) w st
  unfold mmcWaitForReq mmcWaitForReqDone
  dsimp only
  rw [hstart, L.waitLoop_of_ne_etimedout _ _ _ _ herror]
  dsimp only
  rw [if_pos]
  · rfl
  · rcases h with h | h
    · simp [h]
    · simp [hretries, h]

/-- An attempt whose re-tuning succeeds and that finds the card ready submits the request. -/
theorem startRequest_submitted (mrq : Mrq) {a : ReqAttempt τ η} (w : World) (st : Status)
    (htune : ∀ u, (L.tune a.tuning u).2 = 0) (hbusy : ∀ i, a.busy i = false) :
    ∃ new, (L.startRequest mrq a w st).1.log = w.log ++ new ∧ ⟨L.owner, mrq⟩ ∈ new := by
  have hretune : ∀ u, (L.mmcRetune a.tuning u).2 = 0 := by
    intro u
    unfold mmcRetune
    dsimp only
    split
    · exact htune _
    · rfl
  have htries : waitBusy a.busy 0 500 = 500 := by simp [waitBusy, hbusy]
  unfold startRequest
  dsimp only
  generalize hu : (if a.timer then w.mapRetune mmcRetuneNeeded else w) = u
  have hulog : u.log = w.log := by
    rw [← hu]
    split <;> rfl
  obtain ⟨new, hlog, -⟩ := (L.mmcRetune_quiet a.tuning u).log
  rw [if_neg (not_not.mpr (hretune u)), if_neg (by simp [htries])]
  refine ⟨new ++ [⟨L.owner, mrq⟩], ?_, by simp⟩
  rw [mmcRequestDone_log, hlog, hulog, List.append_assoc]

/-- **The unchecked retry.** A request that `mmc_mrq_prep` rejects is submitted if it has a retry
left and the retry meets with no obstacle. -/
theorem mmcWaitForReq_submitted {mrq : Mrq} {w : World} {st : Status} (tape : ℕ → ReqAttempt τ η)
    (hnot : ¬Accepts host mrq) (hcard : w.removed = false) (hretries : st.retries ≠ 0)
    (hremoval : (tape 0).removal = false) (htune : ∀ u, (L.tune (tape 1).tuning u).2 = 0)
    (hbusy : ∀ i, (tape 1).busy i = false) :
    ∃ new, (L.mmcWaitForReq mrq tape w st).1.log = w.log ++ new ∧ ⟨L.owner, mrq⟩ ∈ new := by
  obtain ⟨st', hstart, hst', hzero, herror⟩ := L.startReq_of_not_accepts hnot (tape 0) w st
  unfold mmcWaitForReq mmcWaitForReqDone
  dsimp only
  rw [hstart, L.waitLoop_of_ne_etimedout _ _ _ _ herror]
  dsimp only
  rw [if_neg (by simp [hzero, hst', hretries, hcard, hremoval])]
  generalize hv : World.mapRetune _ mmcRetuneRecheck = v
  have hvlog : v.log = w.log := by rw [← hv]; rfl
  obtain ⟨new, hlog, hmem⟩ := L.startRequest_submitted mrq v
    { st' with retries := st'.retries - 1, error := 0 } htune hbusy
  obtain ⟨hhold, -⟩ := L.startRequest_submits mrq (tape 1) v
    { st' with retries := st'.retries - 1, error := 0 }
  have hpos : 0 < v.retune.holdRetune := by
    rw [← hv, World.mapRetune_retune, mmcRetuneRecheck_eq]
    change 0 < (mmcRetuneHold w.retune).holdRetune
    rw [mmcRetuneHold_eq]
    exact Nat.succ_pos _
  obtain ⟨-, ⟨rest, hrest, -⟩⟩ := L.waitLoop_submits mrq tape 1 _ _ (hhold ▸ hpos)
  refine ⟨new ++ rest, ?_, List.mem_append_left _ hmem⟩
  rw [hrest, hlog, hvlog, List.append_assoc]

end Level

end LinuxDriver.Mmc
