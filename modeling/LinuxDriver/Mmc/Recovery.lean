import LinuxDriver.Mmc.ReadSingle
import LinuxDriver.Lts
import LinuxDriver.Tiling

/-!
# Retries and completion of a request

A read or write request is issued, its outcome is looked at by `mmc_blk_mq_poll_completion`, and
`mmc_blk_mq_complete_rq` completes what was transferred and requeues the rest. An attempt that
transferred nothing costs one of `MMC_MAX_RETRIES` retries. `mmc_blk_mq_rw_recovery` may take back
the bytes that the host reported, spend retries for data errors, and use them up when the card
cannot be reset. The count of the retries starts at zero when the request is dispatched for the
first time, and is not reset when a part of the request is completed.

One step of the system is one attempt: the dispatch, the transfer, the recovery, and the
completion. Its outcome is the action. The recovery that reads sector by sector
(`mmc_blk_read_single`) is left out.

## Main definitions

* `RwOutcome`: what the hardware answers in one attempt.
* `mmcBlkMqRwRecovery`, `mmcBlkMqPollCompletion`, `mmcBlkMqCompleteRq`.
* `RwState`, `rwRequests`: the request with the log of its attempts and completions, and its runs.
* `Reports`: the bytes that an attempt reports are whole sectors, and no more than were issued.

## Main results

* `mmcBlkRwRqPrep_blocks_le`: no more sectors are issued than the request has left.
* `mmcBlkMqPollCompletion_retries`: the count of the retries never goes down.
* `rwRequests_completes`: the request ends after at most `n + MMC_MAX_RETRIES + 1` attempts, with a
  prefix transferred and the rest failed once.
-/

namespace LinuxDriver.Mmc

/-! ### Outcomes -/

/-- What one attempt brings: the errors of the commands and the data, the responses, and the bytes
that the host reports; the result of `card_busy_detect` and the status it read; the results of the
two calls of `__mmc_send_status` and the statuses they read; whether the card is gone; and the
results of `mmc_blk_fix_state`, `mmc_sd_num_wr_blocks` and `mmc_blk_reset`. -/
structure RwOutcome where
  sbcError : ℤ
  cmdError : ℤ
  stopError : ℤ
  dataError : ℤ
  cmdResp : BitVec 32
  stopResp : BitVec 32
  bytesXfered : ℕ
  busyErr : ℤ
  busyStatus : BitVec 32
  statusErr : ℤ
  status : BitVec 32
  statusErr2 : ℤ
  status2 : BitVec 32
  cardRemoved : Bool
  fixStateErr : ℤ
  numWrBlocksErr : ℤ
  numWrBlocks : ℕ
  resetErr : ℤ

/-- `R1_OUT_OF_RANGE` -/
def r1OutOfRange : BitVec 32 := 1 <<< 31

/-- `CMD_ERRORS_EXCL_OOR` -/
def cmdErrorsExclOor : BitVec 32 := cmdErrors &&& ~~~r1OutOfRange

/-- `mmc_blk_stop_err_bits` -/
def mmcBlkStopErrBits (brq : BlkRequest) : BitVec 32 :=
  if brq.sbc.isSome then cmdErrors else cmdErrorsExclOor

/-- `mmc_blk_eval_resp_error`: the error of the stop command after it. -/
def mmcBlkEvalRespError (brq : BlkRequest) (o : RwOutcome) : ℤ :=
  if o.stopError = 0 then
    let val := o.stopResp &&& cmdErrors
    let oorWithOpenEnd := val &&& r1OutOfRange ≠ 0 ∧ brq.sbc.isNone
    if val ≠ 0 ∧ ¬oorWithOpenEnd then -eio else o.stopError
  else o.stopError

/-- `mmc_blk_rq_error` -/
def mmcBlkRqError (brq : BlkRequest) (o : RwOutcome) : Bool :=
  o.sbcError ≠ 0 || o.cmdError ≠ 0 || mmcBlkEvalRespError brq o ≠ 0 || o.dataError ≠ 0 ||
    o.cmdResp &&& cmdErrors ≠ 0

/-- `mmc_blk_status_error` -/
def mmcBlkStatusError (spi : Bool) (dir : DataDir) (brq : BlkRequest) (o : RwOutcome)
    (status : BitVec 32) : Bool :=
  if spi then false
  else
    o.cmdResp &&& cmdErrors ≠ 0 || o.stopResp &&& mmcBlkStopErrBits brq ≠ 0 ||
      status &&& mmcBlkStopErrBits brq ≠ 0 || (dir = .write && !mmcBlkInTranState status)

/-- `mmc_blk_cmd_started` -/
def mmcBlkCmdStarted (o : RwOutcome) : Bool :=
  o.sbcError = 0 && o.cmdError = 0 && o.cmdResp &&& cmdErrors = 0

/-- `mmc_blk_card_busy`: its result, and the bytes it leaves. -/
def mmcBlkCardBusy (spi : Bool) (dir : DataDir) (brq : BlkRequest) (o : RwOutcome) : ℤ × ℕ :=
  if spi ∨ dir = .read then (0, o.bytesXfered)
  else if o.busyStatus &&& mmcBlkStopErrBits brq ≠ 0 then
    (if o.busyErr ≠ 0 then o.busyErr else -eio, 0)
  else (o.busyErr, o.bytesXfered)

/-! ### Recovery -/

def mmcDataRetries : ℕ := 2
def mmcNoRetries : ℕ := mmcMaxRetries + 1

/-- The end of `mmc_blk_mq_rw_recovery`, from the reset of a card in a bad state on. The reset
before the last retry changes neither the bytes nor the retries. -/
def recoveryEnd (spi : Bool) (retries bytes : ℕ) (err : ℤ) (o : RwOutcome) : QueueReq :=
  if spi = false ∧ err ≠ 0 ∧ o.resetErr ≠ 0 then ⟨mmcNoRetries, bytes⟩
  else if bytes ≠ 0 then ⟨retries, bytes⟩
  else if o.sbcError ≠ 0 ∨ o.cmdError ≠ 0 then ⟨retries, bytes⟩
  else if retries < mmcMaxRetries - mmcDataRetries then ⟨mmcMaxRetries - mmcDataRetries, bytes⟩
  else ⟨retries, bytes⟩

/-- `mmc_blk_mq_rw_recovery`, where `sd` is `mmc_card_sd(card)`. -/
def mmcBlkMqRwRecovery (spi sd : Bool) (dir : DataDir) (brq : BlkRequest) (mqrq : QueueReq)
    (o : RwOutcome) : QueueReq :=
  let err := o.statusErr
  let bytes :=
    if err ≠ 0 ∨ mmcBlkStatusError spi dir brq o o.status then 0 else mqrq.bytesXfered
  let status := if err ≠ 0 then o.status2 else o.status
  let err := if err ≠ 0 then o.statusErr2 else err
  if err ≠ 0 ∧ o.cardRemoved then { mqrq with bytesXfered := bytes }
  else
    let err :=
      if spi = false ∧ (err ≠ 0 ∨ mmcBlkInTranState status = false) then o.fixStateErr else err
    let bytes :=
      if err = 0 ∧ mmcBlkCmdStarted o ∧ sd ∧ dir = .write then
        if o.numWrBlocksErr ≠ 0 then 0 else (o.numWrBlocks <<< 9) % 2 ^ 32
      else bytes
    recoveryEnd spi mqrq.retries bytes err o

/-- `mmc_blk_mq_poll_completion`, with the retries of the request before it. -/
def mmcBlkMqPollCompletion (spi sd : Bool) (dir : DataDir) (brq : BlkRequest) (retries : ℕ)
    (o : RwOutcome) : QueueReq :=
  if mmcBlkRqError brq o then mmcBlkMqRwRecovery spi sd dir brq ⟨retries, o.bytesXfered⟩ o
  else
    let busy := mmcBlkCardBusy spi dir brq o
    if busy.1 ≠ 0 then mmcBlkMqRwRecovery spi sd dir brq ⟨retries, busy.2⟩ o
    else ⟨retries, busy.2⟩

/-! ### The request -/

/-- An attempt: where the request started, how many blocks were issued, and the bytes accepted. -/
structure Attempt where
  pos : ℕ
  blocks : ℕ
  bytes : ℕ

/-- A request with what is left of it, its retries, the flag `RQF_DONTPREP`, and whether it has
ended; its attempts; and its sectors ended with `BLK_STS_OK` and with `BLK_STS_IOERR`, the newest
first. -/
structure RwState where
  req : Request
  retries : ℕ
  dontprep : Bool
  ended : Bool
  attempts : List Attempt
  okDone : List Chunk
  failed : List Chunk

/-- `mmc_blk_mq_complete_rq` -/
def mmcBlkMqCompleteRq (B : BlockLayer) (s : RwState) (mqrq : QueueReq) : RwState :=
  let nrBytes := mqrq.bytesXfered
  if nrBytes ≠ 0 then
    let update := B.blkUpdateRequest s.req .ok nrBytes
    { s with
      req := update.2
      retries := mqrq.retries
      ended := !update.1
      okDone := ⟨s.req.pos, nrBytes / 512⟩ :: s.okDone }
  else if s.req.sectors = 0 then
    { s with retries := mqrq.retries, ended := true }
  else if mqrq.retries < mmcMaxRetries then { s with retries := mqrq.retries + 1 }
  else
    { s with
      retries := mqrq.retries + 1
      ended := true
      failed := ⟨s.req.pos, s.req.sectors⟩ :: s.failed }

section System

variable (B : BlockLayer) (mq : Queue) (sd : Bool)

/-- The transfer of an attempt. -/
def RwState.brq (s : RwState) : BlkRequest := mmcBlkRwRqPrep mq s.req (B.mapSg s.req) false

/-- What `mmc_blk_mq_poll_completion` makes of an attempt. The retries are those of the request, or
zero where `mmc_mq_queue_rq` prepares it for the first time. -/
def RwState.poll (s : RwState) (o : RwOutcome) : QueueReq :=
  mmcBlkMqPollCompletion mq.host.spi sd s.req.dir (s.brq B mq) (if s.dontprep then s.retries else 0) o

/-- The request with one more attempt in its log. -/
def RwState.attempted (s : RwState) (o : RwOutcome) : RwState :=
  { s with
    dontprep := true
    attempts := ⟨s.req.pos, (s.brq B mq).data.blocks, (s.poll B mq sd o).bytesXfered⟩ ::
      s.attempts }

/-- One attempt of a request that has not ended. -/
def RwState.next (s : RwState) (o : RwOutcome) : Option RwState :=
  if s.ended then none
  else some (mmcBlkMqCompleteRq B (s.attempted B mq sd o) (s.poll B mq sd o))

/-- A request that comes from the block layer, with some old value in its `retries`. -/
def RwState.init (req : Request) (retries : ℕ) : RwState := ⟨req, retries, false, false, [], [], []⟩

/-- The attempts of a request. -/
def rwRequests (req : Request) (retries : ℕ) : Lts RwState RwOutcome :=
  ⟨RwState.init req retries, RwState.next B mq sd⟩

/-- The bytes accepted in an attempt are whole sectors, and no more than were issued. -/
def Reports (s : RwState) (o : RwOutcome) : Prop :=
  512 ∣ (s.poll B mq sd o).bytesXfered ∧
    (s.poll B mq sd o).bytesXfered ≤ (s.brq B mq).data.blocks * 512

end System

/-! ### The blocks of an attempt -/

theorem transferBlocks_bounds (mq : Queue) {req : Request} (disableMulti : Bool)
    (hpos : 0 < req.sectors) :
    1 ≤ transferBlocks mq req disableMulti ∧ transferBlocks mq req disableMulti ≤ req.sectors := by
  have hmax := mq.host.one_le_maxBlkCount
  simp only [transferBlocks]
  generalize hn : (if mq.host.maxBlkCount < req.sectors then mq.host.maxBlkCount
    else req.sectors) = n
  have hbounds : 1 ≤ n ∧ n ≤ req.sectors := by
    rw [← hn]
    split <;> omega
  by_cases hmulti : 1 < n
  · rw [if_pos hmulti]
    generalize hm : (if disableMulti = true then 1
      else if mq.host.spi = true ∧ req.dir = .read ∧
        wrapAdd 64 req.pos req.sectors = mq.blkdata.capacity then n - 1 else n) = m
    have hm' : 1 ≤ m ∧ m ≤ n := by
      rw [← hm]
      split_ifs <;> omega
    cases mq.host.multiIoQuirk with
    | none => exact ⟨hm'.1, hm'.2.trans hbounds.2⟩
    | some quirk =>
      have hquirk := quirk.bounds req.dir m hm'.1
      exact ⟨hquirk.1, hquirk.2.trans (hm'.2.trans hbounds.2)⟩
  · rw [if_neg hmulti]
    exact hbounds

theorem mmcApplyRelRw_le (card : Card) (req : Request) {blocks : ℕ} (hpos : 1 ≤ blocks) :
    mmcApplyRelRw card req blocks ≤ blocks := by
  simp only [mmcApplyRelRw]
  split_ifs <;> omega

/-- No more sectors are issued than the request has left. -/
theorem mmcBlkRwRqPrep_blocks_le (mq : Queue) {req : Request} (sg : List ℕ) (disableMulti : Bool)
    (hpos : 0 < req.sectors) :
    (mmcBlkRwRqPrep mq req sg disableMulti).data.blocks ≤ req.sectors := by
  obtain ⟨hone, hle⟩ := transferBlocks_bounds mq disableMulti hpos
  have hblocks : (mmcBlkRwRqPrep mq req sg disableMulti).data.blocks =
      if req.reqFua && req.dir = .write && mq.blkdata.relWr then
        mmcApplyRelRw mq.card req (transferBlocks mq req disableMulti)
      else transferBlocks mq req disableMulti := rfl
  rw [hblocks]
  split
  · exact (mmcApplyRelRw_le mq.card req hone).trans hle
  · exact hle

/-! ### The retries of an attempt -/

theorem recoveryEnd_retries (spi : Bool) {retries : ℕ} (bytes : ℕ) (err : ℤ) (o : RwOutcome)
    (h : retries ≤ mmcNoRetries) :
    retries ≤ (recoveryEnd spi retries bytes err o).retries ∧
      (recoveryEnd spi retries bytes err o).retries ≤ mmcNoRetries := by
  have hdata : mmcMaxRetries - mmcDataRetries ≤ mmcNoRetries := by decide
  unfold recoveryEnd
  split_ifs with _ _ _ hlt
  · exact ⟨h, le_rfl⟩
  · exact ⟨le_rfl, h⟩
  · exact ⟨le_rfl, h⟩
  · exact ⟨hlt.le, hdata⟩
  · exact ⟨le_rfl, h⟩

theorem mmcBlkMqRwRecovery_retries (spi sd : Bool) (dir : DataDir) (brq : BlkRequest)
    (mqrq : QueueReq) (o : RwOutcome) (h : mqrq.retries ≤ mmcNoRetries) :
    mqrq.retries ≤ (mmcBlkMqRwRecovery spi sd dir brq mqrq o).retries ∧
      (mmcBlkMqRwRecovery spi sd dir brq mqrq o).retries ≤ mmcNoRetries := by
  rw [mmcBlkMqRwRecovery]
  dsimp only
  generalize (if o.statusErr ≠ 0 then o.statusErr2 else o.statusErr) = err
  by_cases hremoved : err ≠ 0 ∧ o.cardRemoved = true
  · rw [if_pos hremoved]
    exact ⟨le_rfl, h⟩
  · rw [if_neg hremoved]
    exact recoveryEnd_retries spi _ _ o h

/-- The count of the retries never goes down, and stays at most `MMC_NO_RETRIES`. -/
theorem mmcBlkMqPollCompletion_retries (spi sd : Bool) (dir : DataDir) (brq : BlkRequest)
    {retries : ℕ} (h : retries ≤ mmcNoRetries) (o : RwOutcome) :
    retries ≤ (mmcBlkMqPollCompletion spi sd dir brq retries o).retries ∧
      (mmcBlkMqPollCompletion spi sd dir brq retries o).retries ≤ mmcNoRetries := by
  have hrecovery : ∀ bytes, retries ≤
        (mmcBlkMqRwRecovery spi sd dir brq ⟨retries, bytes⟩ o).retries ∧
      (mmcBlkMqRwRecovery spi sd dir brq ⟨retries, bytes⟩ o).retries ≤ mmcNoRetries :=
    fun bytes => mmcBlkMqRwRecovery_retries spi sd dir brq ⟨retries, bytes⟩ o h
  simp only [mmcBlkMqPollCompletion]
  split_ifs
  · exact hrecovery _
  · exact hrecovery _
  · exact ⟨le_rfl, h⟩

/-! ### Progress of a request -/

theorem Request.advance_advance (req : Request) (k n : ℕ) :
    (req.advance k).advance n = req.advance (k + n) := by
  simp only [Request.advance, Nat.add_assoc, Nat.sub_sub]

/-- Every chunk that was ended with `BLK_STS_OK` was accepted from an attempt that issued it. -/
def Backed (s : RwState) : Prop :=
  ∀ c ∈ s.okDone, ∃ a ∈ s.attempts, a.pos = c.pos ∧ a.bytes = 512 * c.size ∧ c.size ≤ a.blocks

/-- A request that has not ended: `k` of its sectors are done, and `zeros` attempts brought
nothing. Each of these has cost a retry. -/
structure Running (req₀ : Request) (s : RwState) (k zeros : ℕ) : Prop where
  ended : s.ended = false
  failed : s.failed = []
  tiles : Tiles req₀.pos s.okDone k
  backed : Backed s
  req : s.req = req₀.advance k
  left : k < req₀.sectors
  attempts : s.attempts.length = s.okDone.length + zeros
  zeros_le : zeros ≤ mmcMaxRetries
  spent : zeros ≤ if s.dontprep then s.retries else 0
  retries_le : (if s.dontprep then s.retries else 0) ≤ mmcNoRetries

/-- A request that has ended with its first `k` sectors done and the rest failed once. -/
structure Finished (req₀ : Request) (s : RwState) (k : ℕ) : Prop where
  ended : s.ended = true
  le : k ≤ req₀.sectors
  tiles : Tiles req₀.pos s.okDone k
  backed : Backed s
  failed : s.failed =
    if k < req₀.sectors then [⟨req₀.pos + k, req₀.sectors - k⟩] else []
  attempts : s.attempts.length ≤ req₀.sectors + mmcMaxRetries

section Progress

variable {B : BlockLayer} {mq : Queue} {sd : Bool} {req₀ : Request} {s : RwState} {k zeros : ℕ}
  {o : RwOutcome}

theorem Running.next_eq (h : Running req₀ s k zeros) :
    s.next B mq sd o =
      some (mmcBlkMqCompleteRq B (s.attempted B mq sd o) (s.poll B mq sd o)) :=
  if_neg (by simp [h.ended])

theorem Backed.attempted (h : Backed s) : Backed (s.attempted B mq sd o) := by
  intro c hc
  obtain ⟨a, ha, hback⟩ := h c hc
  exact ⟨a, List.mem_cons_of_mem _ ha, hback⟩

/-- The chunk completed after an attempt is backed by that attempt. -/
theorem Backed.complete {n : ℕ} (h : Backed s) (hbytes : (s.poll B mq sd o).bytesXfered = 512 * n)
    (hle : n ≤ (s.brq B mq).data.blocks) (s' : RwState)
    (hok : s'.okDone = ⟨s.req.pos, n⟩ :: s.okDone)
    (hattempts : s'.attempts = (s.attempted B mq sd o).attempts) : Backed s' := by
  intro c hc
  rw [hok] at hc
  rw [hattempts]
  rcases List.mem_cons.mp hc with rfl | hc
  · exact ⟨_, List.mem_cons_self, rfl, hbytes, hle⟩
  · exact h.attempted c hc

/-- The retries that an attempt leaves. -/
theorem Running.poll_retries (h : Running req₀ s k zeros) (B : BlockLayer) (mq : Queue) (sd : Bool)
    (o : RwOutcome) :
    zeros ≤ (s.poll B mq sd o).retries ∧ (s.poll B mq sd o).retries ≤ mmcNoRetries := by
  have hpoll := mmcBlkMqPollCompletion_retries mq.host.spi sd s.req.dir (s.brq B mq) h.retries_le o
  exact ⟨h.spent.trans hpoll.1, hpoll.2⟩

/-- **An attempt that brings nothing** costs a retry, or ends the request. -/
theorem Running.next_zero (h : Running req₀ s k zeros)
    (hbytes : (s.poll B mq sd o).bytesXfered = 0) :
    ∃ s', s.next B mq sd o = some s' ∧
      (Running req₀ s' k (zeros + 1) ∨ Finished req₀ s' k) := by
  have hleft : s.req.sectors ≠ 0 := by
    have hlt := h.left
    rw [h.req, Request.advance_sectors]
    omega
  obtain ⟨hspent, hle⟩ := h.poll_retries B mq sd o
  have hcomplete : mmcBlkMqCompleteRq B (s.attempted B mq sd o) (s.poll B mq sd o) =
      if (s.poll B mq sd o).retries < mmcMaxRetries then
        { s.attempted B mq sd o with retries := (s.poll B mq sd o).retries + 1 }
      else
        { s.attempted B mq sd o with
          retries := (s.poll B mq sd o).retries + 1
          ended := true
          failed := ⟨s.req.pos, s.req.sectors⟩ :: s.failed } := by
    rw [mmcBlkMqCompleteRq, hbytes]
    exact if_neg hleft
  have hattempts : s.attempts.length + 1 = s.okDone.length + (zeros + 1) := by
    rw [h.attempts, add_assoc]
  refine ⟨_, h.next_eq, ?_⟩
  rw [hcomplete]
  by_cases hretry : (s.poll B mq sd o).retries < mmcMaxRetries
  · rw [if_pos hretry]
    refine .inl
      ⟨h.ended, h.failed, h.tiles, h.backed.attempted, h.req, h.left, hattempts, ?_, ?_, ?_⟩
    · exact (Nat.succ_le_succ hspent).trans hretry
    · exact Nat.succ_le_succ hspent
    · exact (Nat.succ_le_of_lt hretry).trans (Nat.le_succ _)
  · rw [if_neg hretry]
    refine .inr ⟨rfl, h.left.le, h.tiles, h.backed.attempted, ?_, ?_⟩
    · rw [if_pos h.left, h.failed, h.req]
      rfl
    · have hok := h.tiles.length_le
      have hzeros := h.zeros_le
      have hlt := h.left
      have hlength : s.attempts.length + 1 ≤ req₀.sectors + mmcMaxRetries := by omega
      exact hlength

/-- **An attempt that transfers sectors** completes them, and ends the request with the last. -/
theorem Running.next_pos {n : ℕ} (h : Running req₀ s k zeros) (hn : 0 < n)
    (hbytes : (s.poll B mq sd o).bytesXfered = 512 * n) (hblocks : n ≤ (s.brq B mq).data.blocks) :
    ∃ s', s.next B mq sd o = some s' ∧
      (Running req₀ s' (k + n) zeros ∨ Finished req₀ s' (k + n)) := by
  have hsectors : s.req.sectors = req₀.sectors - k := by rw [h.req, Request.advance_sectors]
  have hlt := h.left
  have hissued : (s.brq B mq).data.blocks ≤ s.req.sectors :=
    mmcBlkRwRqPrep_blocks_le mq _ false (by omega)
  have hpos : s.req.pos = req₀.pos + k := by rw [h.req, Request.advance_pos]
  obtain ⟨hspent, hle⟩ := h.poll_retries B mq sd o
  have hne : (s.poll B mq sd o).bytesXfered ≠ 0 := by omega
  have hcomplete : mmcBlkMqCompleteRq B (s.attempted B mq sd o) (s.poll B mq sd o) =
      { s.attempted B mq sd o with
        req := (B.blkUpdateRequest s.req .ok (512 * n)).2
        retries := (s.poll B mq sd o).retries
        ended := !(B.blkUpdateRequest s.req .ok (512 * n)).1
        okDone := ⟨s.req.pos, n⟩ :: s.okDone } := by
    rw [mmcBlkMqCompleteRq, if_pos hne, hbytes, Nat.mul_div_cancel_left n (by norm_num)]
    rfl
  have htiles : Tiles req₀.pos (⟨s.req.pos, n⟩ :: s.okDone) (k + n) := by
    rw [hpos]
    exact h.tiles.cons hn
  have hbacked : Backed (mmcBlkMqCompleteRq B (s.attempted B mq sd o) (s.poll B mq sd o)) :=
    h.backed.complete hbytes hblocks _ (by rw [hcomplete]) (by rw [hcomplete])
  refine ⟨_, h.next_eq, ?_⟩
  rw [hcomplete] at hbacked ⊢
  by_cases hmore : n < s.req.sectors
  · have hupdate := (B.more s.req .ok n).mpr hmore
    have hrest := B.rest s.req .ok n hmore
    refine .inl ⟨?_, h.failed, htiles, hbacked, ?_, by omega, ?_, h.zeros_le, hspent, hle⟩
    · simp [hupdate]
    · dsimp only
      rw [hrest, h.req, Request.advance_advance]
    · have hattempts := h.attempts
      simp only [RwState.attempted, List.length_cons]
      omega
  · have hupdate : (B.blkUpdateRequest s.req .ok (512 * n)).1 = false :=
      Bool.eq_false_iff.mpr fun hupdate => hmore ((B.more s.req .ok n).mp hupdate)
    have hall : k + n = req₀.sectors := by omega
    refine .inr ⟨by simp [hupdate], hall.le, htiles, hbacked, ?_, ?_⟩
    · rw [if_neg (by omega)]
      exact h.failed
    · have hok := htiles.length_le
      have hattempts := h.attempts
      have hzeros := h.zeros_le
      simp only [RwState.attempted, List.length_cons] at hok ⊢
      omega

/-- One attempt of a running request. -/
theorem Running.next (h : Running req₀ s k zeros) (hreports : Reports B mq sd s o) :
    ∃ s', s.next B mq sd o = some s' ∧
      ((∃ k' zeros', Running req₀ s' k' zeros') ∨ ∃ k', Finished req₀ s' k') := by
  obtain ⟨⟨n, hbytes⟩, hle⟩ := hreports
  rcases Nat.eq_zero_or_pos n with rfl | hn
  · obtain ⟨s', hnext, hrunning | hfinished⟩ := h.next_zero hbytes
    · exact ⟨s', hnext, .inl ⟨_, _, hrunning⟩⟩
    · exact ⟨s', hnext, .inr ⟨_, hfinished⟩⟩
  · obtain ⟨s', hnext, hrunning | hfinished⟩ := h.next_pos hn hbytes (by omega)
    · exact ⟨s', hnext, .inl ⟨_, _, hrunning⟩⟩
    · exact ⟨s', hnext, .inr ⟨_, hfinished⟩⟩

/-- A running request has been issued fewer times than the bound. -/
theorem Running.attempts_lt (h : Running req₀ s k zeros) :
    s.attempts.length < req₀.sectors + mmcMaxRetries := by
  have hok := h.tiles.length_le
  have hattempts := h.attempts
  have hzeros := h.zeros_le
  have hlt := h.left
  omega

@[simp] theorem mmcBlkMqCompleteRq_attempts (B : BlockLayer) (s : RwState) (mqrq : QueueReq) :
    (mmcBlkMqCompleteRq B s mqrq).attempts = s.attempts := by
  simp only [mmcBlkMqCompleteRq]
  split_ifs <;> rfl

/-- A run makes as many attempts as it has steps. -/
theorem attempts_length {retries : ℕ} {as : List RwOutcome}
    (hrun : (rwRequests B mq sd req₀ retries).run as = some s) :
    s.attempts.length = as.length := by
  refine (rwRequests B mq sd req₀ retries).invariant_run
    (I := fun as s => s.attempts.length = as.length) rfl (fun as s o s' ih hnext => ?_) hrun
  have hnext : s.next B mq sd o = some s' := hnext
  rw [RwState.next] at hnext
  split at hnext
  · cases hnext
  · obtain rfl := Option.some.inj hnext
    simp [RwState.attempted, ih]

theorem Running.init (hpos : 0 < req₀.sectors) (retries : ℕ) :
    Running req₀ (RwState.init req₀ retries) 0 0 where
  ended := rfl
  failed := rfl
  tiles := Tiles.nil _
  backed _ hc := absurd hc List.not_mem_nil
  req := rfl
  left := hpos
  attempts := rfl
  zeros_le := Nat.zero_le _
  spent := Nat.zero_le _
  retries_le := Nat.zero_le _

/-- After any number of attempts the request is still running, or has ended by then. -/
theorem running_or_finished (hpos : 0 < req₀.sectors) (retries : ℕ)
    (outcomes : Stream' RwOutcome)
    (hreports : ∀ m s, (rwRequests B mq sd req₀ retries).run (outcomes.take m) = some s →
      s.ended = false → Reports B mq sd s (outcomes.get m)) (m : ℕ) :
    (∃ s k zeros, (rwRequests B mq sd req₀ retries).run (outcomes.take m) = some s ∧
      Running req₀ s k zeros) ∨
    ∃ m' ≤ m, ∃ s k, (rwRequests B mq sd req₀ retries).run (outcomes.take m') = some s ∧
      Finished req₀ s k := by
  induction m with
  | zero => exact .inl ⟨_, 0, 0, rfl, Running.init hpos retries⟩
  | succ m ih =>
    rcases ih with ⟨s, k, zeros, hrun, hrunning⟩ | ⟨m', hm', hfinished⟩
    · obtain ⟨s', hnext, hcases⟩ := hrunning.next (hreports m s hrun hrunning.ended)
      have hrun' : (rwRequests B mq sd req₀ retries).run (outcomes.take (m + 1)) = some s' := by
        rw [Stream'.take_succ']
        refine (rwRequests B mq sd req₀ retries).runFrom_append_eq_some.mpr ⟨s, hrun, ?_⟩
        exact (rwRequests B mq sd req₀ retries).runFrom_cons_eq_some.mpr ⟨s', hnext, rfl⟩
      rcases hcases with ⟨k', zeros', hrunning'⟩ | ⟨k', hfinished⟩
      · exact .inl ⟨s', k', zeros', hrun', hrunning'⟩
      · exact .inr ⟨m + 1, le_rfl, s', k', hrun', hfinished⟩
    · exact .inr ⟨m', hm'.trans (Nat.le_succ m), hfinished⟩

end Progress

/-- **Bounded retries.** A request of `n` sectors, whatever the outcomes of its attempts, ends after
at most `n + MMC_MAX_RETRIES + 1` of them. The sectors ended with `BLK_STS_OK` are a prefix of the
request, each accepted from an attempt that issued it, and the rest, if any, is ended once with
`BLK_STS_IOERR`. -/
theorem rwRequests_completes (B : BlockLayer) (mq : Queue) (sd : Bool) {req : Request}
    (hpos : 0 < req.sectors) (retries : ℕ) (outcomes : Stream' RwOutcome)
    (hreports : ∀ m s, (rwRequests B mq sd req retries).run (outcomes.take m) = some s →
      s.ended = false → Reports B mq sd s (outcomes.get m)) :
    ∃ m s k, m ≤ req.sectors + mmcMaxRetries + 1 ∧
      (rwRequests B mq sd req retries).run (outcomes.take m) = some s ∧
      s.attempts.length = m ∧ s.ended = true ∧ k ≤ req.sectors ∧
      {t | ∃ c ∈ s.okDone, t ∈ c.units} = Set.Ico req.pos (req.pos + k) ∧ Backed s ∧
      s.failed = if k < req.sectors then [⟨req.pos + k, req.sectors - k⟩] else [] := by
  rcases running_or_finished hpos retries outcomes hreports (req.sectors + mmcMaxRetries) with
    ⟨s, k, zeros, hrun, hrunning⟩ | ⟨m, hm, s, k, hrun, hfinished⟩
  · have hlength := attempts_length hrun
    have hlt := hrunning.attempts_lt
    rw [hlength, Stream'.length_take] at hlt
    exact absurd hlt (lt_irrefl _)
  · have hlength := attempts_length hrun
    rw [Stream'.length_take] at hlength
    exact ⟨m, s, k, by omega, hrun, hlength, hfinished.ended, hfinished.le,
      hfinished.tiles.units_eq, hfinished.backed, hfinished.failed⟩

/-! ### Where the bytes come from -/

theorem recoveryEnd_bytes (spi : Bool) (retries bytes : ℕ) (err : ℤ) (o : RwOutcome) :
    (recoveryEnd spi retries bytes err o).bytesXfered = bytes := by
  unfold recoveryEnd
  split_ifs <;> rfl

/-- The bytes of an attempt are taken back, or those before the recovery, or those that an SD card
has recorded. -/
theorem mmcBlkMqRwRecovery_bytes (spi sd : Bool) (dir : DataDir) (brq : BlkRequest)
    (mqrq : QueueReq) (o : RwOutcome) :
    (mmcBlkMqRwRecovery spi sd dir brq mqrq o).bytesXfered = 0 ∨
    (mmcBlkMqRwRecovery spi sd dir brq mqrq o).bytesXfered = mqrq.bytesXfered ∨
    (sd = true ∧
      (mmcBlkMqRwRecovery spi sd dir brq mqrq o).bytesXfered = (o.numWrBlocks <<< 9) % 2 ^ 32) := by
  rw [mmcBlkMqRwRecovery]
  dsimp only
  generalize (if o.statusErr ≠ 0 then o.statusErr2 else o.statusErr) = err
  generalize hbytes : (if o.statusErr ≠ 0 ∨ mmcBlkStatusError spi dir brq o o.status = true then 0
    else mqrq.bytesXfered) = bytes
  have hkept : bytes = 0 ∨ bytes = mqrq.bytesXfered := by
    rw [← hbytes]
    split
    · exact .inl rfl
    · exact .inr rfl
  by_cases hremoved : err ≠ 0 ∧ o.cardRemoved = true
  · rw [if_pos hremoved]
    exact hkept.imp_right .inl
  · rw [if_neg hremoved, recoveryEnd_bytes]
    generalize (if spi = false ∧ (err ≠ 0 ∨
      mmcBlkInTranState (if o.statusErr ≠ 0 then o.status2 else o.status) = false) then
        o.fixStateErr else err) = err'
    split_ifs with hsd
    · exact .inl rfl
    · exact .inr (.inr ⟨hsd.2.2.1, rfl⟩)
    · exact hkept.imp_right .inl

theorem mmcBlkCardBusy_bytes (spi : Bool) (dir : DataDir) (brq : BlkRequest) (o : RwOutcome) :
    (mmcBlkCardBusy spi dir brq o).2 = 0 ∨ (mmcBlkCardBusy spi dir brq o).2 = o.bytesXfered := by
  unfold mmcBlkCardBusy
  split_ifs
  · exact .inr rfl
  · exact .inl rfl
  · exact .inl rfl
  · exact .inr rfl

theorem mmcBlkMqPollCompletion_bytes (spi sd : Bool) (dir : DataDir) (brq : BlkRequest)
    (retries : ℕ) (o : RwOutcome) :
    (mmcBlkMqPollCompletion spi sd dir brq retries o).bytesXfered = 0 ∨
    (mmcBlkMqPollCompletion spi sd dir brq retries o).bytesXfered = o.bytesXfered ∨
    (sd = true ∧ (mmcBlkMqPollCompletion spi sd dir brq retries o).bytesXfered =
      (o.numWrBlocks <<< 9) % 2 ^ 32) := by
  have hbusy := mmcBlkCardBusy_bytes spi dir brq o
  simp only [mmcBlkMqPollCompletion]
  split_ifs
  · exact mmcBlkMqRwRecovery_bytes spi sd dir brq ⟨retries, o.bytesXfered⟩ o
  · rcases mmcBlkMqRwRecovery_bytes spi sd dir brq
      ⟨retries, (mmcBlkCardBusy spi dir brq o).2⟩ o with hzero | hsame | hcard
    · exact .inl hzero
    · rw [hsame]
      exact hbusy.imp_right .inl
    · exact .inr (.inr hcard)
  · exact hbusy.imp_right .inl

/-- **What a host has to report.** Whole sectors, no more than were issued, and the same of the
blocks that an SD card has recorded. -/
theorem reports_of_outcome {B : BlockLayer} {mq : Queue} {sd : Bool} {s : RwState} {o : RwOutcome}
    (hsectors : 512 ∣ o.bytesXfered) (hle : o.bytesXfered ≤ (s.brq B mq).data.blocks * 512)
    (hsd : sd = true → o.numWrBlocks ≤ (s.brq B mq).data.blocks) : Reports B mq sd s o := by
  rw [Reports, RwState.poll]
  rcases mmcBlkMqPollCompletion_bytes mq.host.spi sd s.req.dir (s.brq B mq)
    (if s.dontprep then s.retries else 0) o with hzero | hhost | ⟨hcard, hwritten⟩
  · rw [hzero]
    exact ⟨dvd_zero _, Nat.zero_le _⟩
  · rw [hhost]
    exact ⟨hsectors, hle⟩
  · have hblocks := hsd hcard
    rw [hwritten, Nat.shiftLeft_eq]
    constructor <;> omega

/-- An attempt with the given data error and bytes, after which the card is in the state `tran`. -/
def rwSampleOutcome (dataError : ℤ) (bytes : ℕ) : RwOutcome where
  sbcError := 0
  cmdError := 0
  stopError := 0
  dataError := dataError
  cmdResp := 0x900
  stopResp := 0
  bytesXfered := bytes
  busyErr := 0
  busyStatus := 0x900
  statusErr := 0
  status := 0x900
  statusErr2 := 0
  status2 := 0x900
  cardRemoved := false
  fixStateErr := 0
  numWrBlocksErr := 0
  numWrBlocks := 0
  resetErr := 0

/-- Of two sectors the first is read in the first attempt, and all attempts after it fail. -/
def rwSampleOutcomes : Stream' RwOutcome := fun i =>
  if i = 0 then rwSampleOutcome 0 512 else rwSampleOutcome (-84) 0

/-- The requests for the two sectors. -/
abbrev rwSampleRequests : Lts RwState RwOutcome :=
  rwRequests flatBlockLayer readSingleSampleQueue false readSingleSampleRequest 0

theorem rwSample_failed : ∀ m ≤ 2 + mmcMaxRetries + 1,
    ∀ s ∈ rwSampleRequests.run (Stream'.take m rwSampleOutcomes),
      s.ended = true → s.failed = [⟨9, 1⟩] := by decide +kernel

theorem rwRequests_completes_sample :
    ∃ m s, m ≤ 2 + mmcMaxRetries + 1 ∧
      rwSampleRequests.run (Stream'.take m rwSampleOutcomes) = some s ∧
      s.attempts.length = m ∧ s.ended = true ∧
      {t | ∃ c ∈ s.okDone, t ∈ c.units} = Set.Ico 8 9 ∧ Backed s ∧ s.failed = [⟨9, 1⟩] := by
  have hpos : 0 < readSingleSampleRequest.sectors := by decide
  obtain ⟨m, s, k, hm, hrun, hlen, hended, hk, hdone, hbacked, hfailed⟩ :=
    rwRequests_completes flatBlockLayer readSingleSampleQueue false hpos 0 rwSampleOutcomes
      fun m s hrun _ => by
        cases m with
        | zero =>
          obtain rfl := Option.some.inj hrun
          exact reports_of_outcome (by decide) (by decide) (by decide)
        | succ m => exact reports_of_outcome (dvd_zero 512) (Nat.zero_le _) (fun h => by cases h)
  have hrest := rwSample_failed m hm s hrun hended
  obtain rfl : k = 1 := by
    rw [hrest] at hfailed
    split_ifs at hfailed with hlt
    have hpos : 9 = 8 + k := congrArg Chunk.pos (List.head_eq_of_cons_eq hfailed)
    omega
  exact ⟨m, s, hm, hrun, hlen, hended, hdone, hbacked, hrest⟩

end LinuxDriver.Mmc
