import LinuxDriver.Mmc.WaitForReq

/-!
# Requests within requests

`mmc_retune` tunes with requests of its own, and `mmc_interrupt_hpi` brings a card out of a sanitize
with requests that may be tuned before. They have no data, or else no retries, so none of them that
`mmc_mrq_prep` rejects is submitted. With that, the requests of callers are the last of three
levels.

## Main definitions

* `InnerRequest`: a request that is part of another one.
* `TuningRun`, `tune`: what a tuning does.
* `HpiRun`, `mmcInterruptHpi`: what the interruption of a sanitize does.
* `tuningLevel`, `hpiLevel`, `callerLevel`: the three levels.
* `WaitCorrect`: what a call of `mmc_wait_for_req` is meant to do.

## Main results

* `mmcWaitForReq_balanced`: the holds and the number of submissions, for every call.
* `mmcWaitForReq_correct_iff`: a call is correct whatever happens if and only if `mmc_mrq_prep`
  accepts the request, or the card is gone, or there is no retry.
-/

namespace LinuxDriver.Mmc

namespace Quiet

variable {host : HostCaps} {owners owners' : Set Owner} {w w' w'' : World}

theorem refl (w : World) : Quiet host owners w w := ⟨rfl, [], by simp⟩

theorem trans (h : Quiet host owners w w') (h' : Quiet host owners w' w'') :
    Quiet host owners w w'' := by
  obtain ⟨new, hlog, hnew⟩ := h.log
  obtain ⟨new', hlog', hnew'⟩ := h'.log
  refine ⟨h'.hold.trans h.hold, new ++ new', by rw [hlog', hlog, List.append_assoc], fun s hs => ?_⟩
  exact (List.mem_append.mp hs).elim (hnew s) (hnew' s)

theorem mono (h : Quiet host owners w w') (hsub : owners ⊆ owners') : Quiet host owners' w w' := by
  obtain ⟨new, hlog, hnew⟩ := h.log
  exact ⟨h.hold, new, hlog, fun s hs => ⟨hsub (hnew s hs).1, (hnew s hs).2⟩⟩

theorem foldl {ι : Type} {f : World → ι → World} (hf : ∀ w i, Quiet host owners w (f w i))
    (is : List ι) (w : World) : Quiet host owners w (is.foldl f w) := by
  induction is generalizing w with
  | nil => exact .refl w
  | cons i is ih => exact (hf w i).trans (ih (f w i))

/-- What is done under a hold of its own. -/
theorem held (h : Quiet host owners (w.mapRetune mmcRetuneHold) w') :
    Quiet host owners w (w'.mapRetune mmcRetuneRelease) := by
  have hhold : w'.retune.holdRetune = w.retune.holdRetune + 1 := by
    rw [h.hold, World.mapRetune_retune, mmcRetuneHold_eq]
  refine ⟨?_, h.log⟩
  rw [World.mapRetune_retune, mmcRetuneRelease_of_pos (by omega)]
  exact Nat.sub_eq_of_eq_add hhold

end Quiet

/-! ### Requests that are part of another one -/

/-- A request that is part of another one. It has no data, or it is not retried, and it is no
sanitize. -/
structure InnerRequest where
  mrq : Mrq
  retries : ℕ
  plain : mrq.data = none ∨ retries = 0
  sanitizeBusy : mrq.sanitizeBusy = false

/-- A command without data, as `mmc_wait_for_cmd` wraps it. -/
def InnerRequest.cmd (opcode arg retries : ℕ) : InnerRequest where
  mrq := ⟨opcode, arg, false, false, none, false⟩
  retries := retries
  plain := .inl rfl
  sanitizeBusy := rfl

/-- A request of one block for `mmc_send_tuning`. -/
def InnerRequest.tuningBlock (opcode size : ℕ) : InnerRequest where
  mrq := ⟨opcode, 0, false, false, some ⟨size, 1, [size]⟩, false⟩
  retries := 0
  plain := .inr rfl
  sanitizeBusy := rfl

/-- A request as its owner has cleared it. -/
def Status.clear (retries : ℕ) : Status := ⟨0, retries, 0, 0, 0, 0⟩

section Inner

variable {host : HostCaps} {τ η : Type} (L : Level host τ η)

/-- `mmc_wait_for_req` for a request that is part of another one. -/
def Level.send (r : InnerRequest) (tape : ℕ → ReqAttempt τ η) (w : World) : World × Status :=
  L.mmcWaitForReq r.mrq tape w (.clear r.retries)

theorem Level.send_quiet (r : InnerRequest) (tape : ℕ → ReqAttempt τ η) (w : World) :
    Quiet host (insert L.owner L.inner) w (L.send r tape w).1 := by
  obtain ⟨hhold, ⟨new, hlog, -, hnew⟩⟩ := L.mmcWaitForReq_submits r.mrq tape w (.clear r.retries)
  by_cases haccepts : Accepts host r.mrq
  · refine ⟨hhold, new, hlog, fun s hs => ?_⟩
    rcases hnew s hs with rfl | ⟨hinner, hs⟩
    · exact ⟨Set.mem_insert .., haccepts⟩
    · exact ⟨Set.mem_insert_of_mem _ hinner, hs⟩
  · have hretries : (Status.clear r.retries).retries = 0 :=
      r.plain.resolve_left fun hdata => haccepts (accepts_of_data_eq_none hdata)
    have hsame := L.mmcWaitForReq_log_of_not_accepts (w := w) haccepts (.inr hretries) tape
    exact ⟨hhold, [], by rw [Level.send, hsame, List.append_nil], List.forall_mem_nil _⟩

end Inner

/-! ### Tuning -/

/-- The requests of a tuning. The host is `doing_retune`, so there is no tuning before them. -/
def tuningLevel (host : HostCaps) : Level host Unit Unit where
  owner := .tuning
  inner := ∅
  tune _ w := (w, 0)
  interruptHpi _ w := (w, 1)
  owner_notMem := Set.notMem_empty _
  tune_quiet _ w := .refl w
  interruptHpi_quiet _ w := .refl w

/-- A request, and what the environment decides about its attempts. -/
abbrev TunedRequest := InnerRequest × (ℕ → ReqAttempt Unit Unit)

/-- A step of a tuning: a request, or the requests of an `__mmc_switch`, which holds re-tuning. -/
inductive TuningStep
  | request (r : TunedRequest)
  | switch (rs : List TunedRequest)

def TuningStep.run (host : HostCaps) (w : World) : TuningStep → World
  | .request r => ((tuningLevel host).send r.1 r.2 w).1
  | .switch rs =>
    let w := w.mapRetune mmcRetuneHold
    let w := rs.foldl (fun w r => ((tuningLevel host).send r.1 r.2 w).1) w
    w.mapRetune mmcRetuneRelease

/-- A part of a tuning: its steps, and the error that it returns. -/
structure TuningPart where
  steps : List TuningStep
  err : ℤ

def TuningPart.run (host : HostCaps) (p : TuningPart) (w : World) : World × ℤ :=
  (p.steps.foldl (TuningStep.run host) w, p.err)

/-- What a tuning meets: whether the timing is HS400, what `mmc_hs400_to_hs200`, `execute_tuning`
and `mmc_hs200_to_hs400` do, and whether there is an `execute_tuning`. -/
structure TuningRun where
  hs400 : Bool
  downgrade : TuningPart
  executeTuning : Option TuningPart
  upgrade : TuningPart

/-- `mmc_execute_tuning` -/
def mmcExecuteTuning (host : HostCaps) (p : Option TuningPart) (w : World) : World × ℤ :=
  match p with
  | none => (w, 0)
  | some p =>
    let tuned := p.run host w
    if tuned.2 ≠ 0 then tuned else (tuned.1.mapRetune mmcRetuneEnable, 0)

/-- The part of `mmc_retune` between its begin and its end. -/
def tune (host : HostCaps) (t : TuningRun) (w : World) : World × ℤ :=
  let down := if t.hs400 then t.downgrade.run host w else (w, 0)
  if down.2 ≠ 0 then down
  else
    let tuned := mmcExecuteTuning host t.executeTuning down.1
    if tuned.2 ≠ 0 then tuned else if t.hs400 then t.upgrade.run host tuned.1 else tuned

theorem TuningStep.run_quiet (host : HostCaps) (w : World) (s : TuningStep) :
    Quiet host {.tuning} w (s.run host w) := by
  have hsend : ∀ (r : TunedRequest) (w : World),
      Quiet host {.tuning} w ((tuningLevel host).send r.1 r.2 w).1 := fun r w =>
    ((tuningLevel host).send_quiet r.1 r.2 w).mono (insert_empty_eq Owner.tuning).subset
  cases s with
  | request r => exact hsend r w
  | switch rs => exact (Quiet.foldl (fun w r => hsend r w) rs (w.mapRetune mmcRetuneHold)).held

theorem TuningPart.run_quiet (host : HostCaps) (p : TuningPart) (w : World) :
    Quiet host {.tuning} w (p.run host w).1 :=
  Quiet.foldl (TuningStep.run_quiet host) p.steps w

theorem mmcExecuteTuning_quiet (host : HostCaps) (p : Option TuningPart) (w : World) :
    Quiet host {.tuning} w (mmcExecuteTuning host p w).1 := by
  unfold mmcExecuteTuning
  cases p with
  | none => exact .refl w
  | some p =>
    dsimp only
    have hrun := p.run_quiet host w
    split
    · exact hrun
    · exact hrun.trans ⟨rfl, [], by simp⟩

theorem tune_quiet (host : HostCaps) (t : TuningRun) (w : World) :
    Quiet host {.tuning} w (tune host t w).1 := by
  unfold tune
  dsimp only
  generalize hdown : (if t.hs400 then t.downgrade.run host w else (w, 0)) = down
  have hquiet : Quiet host {.tuning} w down.1 := by
    rw [← hdown]
    split
    · exact t.downgrade.run_quiet host w
    · exact .refl w
  have htuned := mmcExecuteTuning_quiet host t.executeTuning down.1
  split_ifs
  · exact hquiet
  · exact hquiet.trans htuned
  · exact (hquiet.trans htuned).trans (t.upgrade.run_quiet host _)
  · exact hquiet.trans htuned

/-! ### Interrupting a sanitize -/

/-- The requests of `mmc_interrupt_hpi`. They may be tuned before, and are no sanitize. -/
def hpiLevel (host : HostCaps) : Level host TuningRun Unit where
  owner := .hpi
  inner := {.tuning}
  tune := tune host
  interruptHpi _ w := (w, 1)
  owner_notMem := by decide
  tune_quiet := tune_quiet host
  interruptHpi_quiet _ w := .refl w

/-- What the environment decides about the attempts of a request of `mmc_interrupt_hpi`. -/
abbrev HpiTape := ℕ → ReqAttempt TuningRun Unit

/-- The states of a card in a response, `R1_STATE_IDLE` and the others. -/
def r1StateIdle : ℕ := 0
def r1StateReady : ℕ := 1
def r1StateStby : ℕ := 3
def r1StateTran : ℕ := 4
def r1StatePrg : ℕ := 7

/-- `R1_CURRENT_STATE` -/
def r1CurrentState (status : ℕ) : ℕ := (status &&& 0x1E00) >>> 9

/-- What `mmc_interrupt_hpi` meets: the attempts of its requests, with the polls before the time
is over and the one after that. -/
structure HpiRun where
  status : HpiTape
  cmd : HpiTape
  polls : List HpiTape
  last : HpiTape

/-- `mmc_send_status`: its error is that of the request, and the status is in the response. -/
def mmcSendStatus (host : HostCaps) (tape : HpiTape) (w : World) : World × Status :=
  let arg := if host.spi then 0 else host.rca <<< 16 % 2 ^ 32
  (hpiLevel host).send (.cmd mmcSendStatusOp arg mmcCmdRetries) tape w

/-- `mmc_send_hpi_cmd` -/
def mmcSendHpiCmd (host : HostCaps) (tape : HpiTape) (w : World) : World × ℤ :=
  if host.hpi then
    let sent := (hpiLevel host).send (.cmd host.hpiCmd (host.rca <<< 16 % 2 ^ 32 ||| 1) 0) tape w
    (sent.1, sent.2.error)
  else (w, -einval)

/-- The loop of `mmc_interrupt_hpi` that waits for the card to be out of its programming state. -/
def pollHpi (host : HostCaps) (last : HpiTape) : List HpiTape → World → World × ℤ
  | [], w =>
    let sent := mmcSendStatus host last w
    if sent.2.error = 0 ∧ r1CurrentState sent.2.resp0 = r1StateTran then (sent.1, 0)
    else (sent.1, -etimedout)
  | tape :: polls, w =>
    let sent := mmcSendStatus host tape w
    if sent.2.error = 0 ∧ r1CurrentState sent.2.resp0 = r1StateTran then (sent.1, 0)
    else if sent.2.error ≠ 0 then (sent.1, sent.2.error)
    else pollHpi host last polls sent.1

/-- `mmc_interrupt_hpi` -/
def mmcInterruptHpi (host : HostCaps) (i : HpiRun) (w : World) : World × ℤ :=
  if ¬host.hpiEn then (w, 1)
  else
    let sent := mmcSendStatus host i.status w
    let state := r1CurrentState sent.2.resp0
    if sent.2.error ≠ 0 then (sent.1, sent.2.error)
    else if state = r1StateIdle ∨ state = r1StateReady ∨ state = r1StateStby ∨
        state = r1StateTran then (sent.1, 0)
    else if state ≠ r1StatePrg then (sent.1, -einval)
    else
      let hpi := mmcSendHpiCmd host i.cmd sent.1
      if hpi.2 ≠ 0 then hpi else pollHpi host i.last i.polls hpi.1

section Hpi

variable (host : HostCaps)

theorem mmcSendStatus_quiet (tape : HpiTape) (w : World) :
    Quiet host {.hpi, .tuning} w (mmcSendStatus host tape w).1 :=
  (hpiLevel host).send_quiet ..

theorem mmcSendHpiCmd_quiet (tape : HpiTape) (w : World) :
    Quiet host {.hpi, .tuning} w (mmcSendHpiCmd host tape w).1 := by
  unfold mmcSendHpiCmd
  split
  · exact (hpiLevel host).send_quiet ..
  · exact .refl w

theorem pollHpi_quiet (last : HpiTape) (polls : List HpiTape) (w : World) :
    Quiet host {.hpi, .tuning} w (pollHpi host last polls w).1 := by
  induction polls generalizing w with
  | nil =>
    have hsent := mmcSendStatus_quiet host last w
    unfold pollHpi
    dsimp only
    split <;> exact hsent
  | cons tape polls ih =>
    have hsent := mmcSendStatus_quiet host tape w
    unfold pollHpi
    dsimp only
    split_ifs
    · exact hsent
    · exact hsent
    · exact hsent.trans (ih _)

theorem mmcInterruptHpi_quiet (i : HpiRun) (w : World) :
    Quiet host {.hpi, .tuning} w (mmcInterruptHpi host i w).1 := by
  have hsent := mmcSendStatus_quiet host i.status w
  unfold mmcInterruptHpi
  dsimp only
  split
  · exact .refl w
  · have hhpi := hsent.trans (mmcSendHpiCmd_quiet host i.cmd _)
    split_ifs
    · exact hsent
    · exact hsent
    · exact hsent
    · exact hhpi
    · exact hhpi.trans (pollHpi_quiet host i.last i.polls _)

end Hpi

/-! ### Requests of callers -/

/-- The requests of callers, with all that may be done before and after an attempt. -/
def callerLevel (host : HostCaps) : Level host TuningRun HpiRun where
  owner := .caller
  inner := {.hpi, .tuning}
  tune := tune host
  interruptHpi := mmcInterruptHpi host
  owner_notMem := by decide
  tune_quiet t w := (tune_quiet host t w).mono (Set.subset_insert ..)
  interruptHpi_quiet := mmcInterruptHpi_quiet host

/-- `mmc_wait_for_req` of a request with the given retries is correct: it restores the holds, submits
the request at most once more than it has retries, and nothing that `mmc_mrq_prep` rejects is
submitted. -/
structure WaitCorrect (host : HostCaps) (retries : ℕ) (w w' : World) : Prop where
  hold : w'.retune.holdRetune = w.retune.holdRetune
  log : ∃ new, w'.log = w.log ++ new ∧ new.countP (fun s => s.owner = .caller) ≤ retries + 1 ∧
    ∀ s ∈ new, Accepts host s.mrq

variable {host : HostCaps} {mrq : Mrq} {w : World} {st : Status}

/-- **Balanced holds, bounded attempts.** Every call restores the holds and submits the request at
most once more than it has retries, and what else is submitted `mmc_mrq_prep` accepts. -/
theorem mmcWaitForReq_balanced (host : HostCaps) (mrq : Mrq)
    (tape : ℕ → ReqAttempt TuningRun HpiRun) (w : World) (st : Status) :
    ((callerLevel host).mmcWaitForReq mrq tape w st).1.retune.holdRetune = w.retune.holdRetune ∧
      ∃ new, ((callerLevel host).mmcWaitForReq mrq tape w st).1.log = w.log ++ new ∧
        new.countP (fun s => s.owner = .caller) ≤ st.retries + 1 ∧
        ∀ s ∈ new, s = ⟨.caller, mrq⟩ ∨ Accepts host s.mrq := by
  obtain ⟨hhold, ⟨new, hlog, hcount, hnew⟩⟩ :=
    (callerLevel host).mmcWaitForReq_submits mrq tape w st
  exact ⟨hhold, new, hlog, hcount, fun s hs => (hnew s hs).imp id And.right⟩

/-- A tuning that has nothing to do. -/
def TuningRun.idle : TuningRun := ⟨false, ⟨[], 0⟩, none, ⟨[], 0⟩⟩

/-- What meets an attempt on a host that reports the given error and does nothing else. -/
def ReqAttempt.plain (error : ℤ) : ReqAttempt TuningRun HpiRun where
  timer := false
  tuning := .idle
  busy _ := false
  response := ⟨error, 0, 0, 0, 0⟩
  removal := false
  hpi := ⟨fun _ => ⟨false, .idle, fun _ => false, ⟨0, 0, 0, 0, 0⟩, false, ()⟩,
    fun _ => ⟨false, .idle, fun _ => false, ⟨0, 0, 0, 0, 0⟩, false, ()⟩, [],
    fun _ => ⟨false, .idle, fun _ => false, ⟨0, 0, 0, 0, 0⟩, false, ()⟩⟩

/-- On a host that does nothing out of the ordinary, the retry of a request that `mmc_mrq_prep`
rejects is submitted. -/
theorem not_waitCorrect_of_not_accepts (hnot : ¬Accepts host mrq) (hcard : w.removed = false)
    (hretries : st.retries ≠ 0) (n : ℕ) :
    ¬WaitCorrect host n w
      ((callerLevel host).mmcWaitForReq mrq (fun _ => ReqAttempt.plain 0) w st).1 := by
  rintro ⟨-, new, hlog, -, hnew⟩
  obtain ⟨new', hlog', hmem⟩ := (callerLevel host).mmcWaitForReq_submitted
    (fun _ => ReqAttempt.plain 0) hnot hcard hretries rfl (fun _ => rfl) fun _ => rfl
  obtain rfl : new = new' := List.append_cancel_left (hlog.symm.trans hlog')
  exact hnot (hnew _ hmem)

/-- **Retries and rejected requests.** Calls with this request are correct whatever the host does if
and only if `mmc_mrq_prep` accepts it, or the card is flagged as removed, or it has no retries. -/
theorem mmcWaitForReq_correct_iff (host : HostCaps) (mrq : Mrq) (w : World) (st : Status) :
    (∀ tape, WaitCorrect host st.retries w
        ((callerLevel host).mmcWaitForReq mrq tape w st).1) ↔
      Accepts host mrq ∨ w.removed = true ∨ st.retries = 0 := by
  constructor
  · intro h
    by_contra hno
    push Not at hno
    obtain ⟨hnot, hcard, hretries⟩ := hno
    exact not_waitCorrect_of_not_accepts hnot (Bool.eq_false_iff.mpr hcard) hretries _ (h _)
  · intro h tape
    obtain ⟨hhold, new, hlog, hcount, hnew⟩ := mmcWaitForReq_balanced host mrq tape w st
    refine ⟨hhold, new, hlog, hcount, fun s hs => ?_⟩
    by_cases haccepts : Accepts host mrq
    · rcases hnew s hs with rfl | hs
      · exact haccepts
      · exact hs
    · have hsame := (callerLevel host).mmcWaitForReq_log_of_not_accepts haccepts
        (h.resolve_left haccepts) tape
      obtain rfl : new = [] :=
        List.append_cancel_left (hlog.symm.trans (by rw [hsame, List.append_nil]))
      exact absurd hs List.not_mem_nil

/-- A write of 512 bytes with a scatter list of 256 is refused, and its retry is submitted. -/
theorem mmcWaitForReq_submits_rejected :
    ¬WaitCorrect ⟨512, 1, 512, false, false, false, false, 0, 0⟩ 1
      ⟨.alloc, false, []⟩
      ((callerLevel ⟨512, 1, 512, false, false, false, false, 0, 0⟩).mmcWaitForReq
        ⟨24, 0, false, false, some ⟨512, 1, [256]⟩, false⟩ (fun _ => ReqAttempt.plain 0)
        ⟨.alloc, false, []⟩ (.clear 1)).1 := by
  refine not_waitCorrect_of_not_accepts (fun h => ?_) rfl (by decide) 1
  have := (h _ rfl).2.2.2
  exact absurd this (by decide)

end LinuxDriver.Mmc
