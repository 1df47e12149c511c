import LinuxDriver.Mmc.Recovery

/-!
# What the recovery believes

Two sources outside of the host driver say how a transfer went. The responses of the commands have
error bits, which `mmc_blk_rq_error` and `mmc_blk_status_error` look at by the same policy. And an
SD card that was written to says how many blocks it has recorded.

## Main definitions

* `RespError`: the policy for the error bits.
* `CountsBlocks`: the recovery takes the number of bytes from the card.
* `CreditsIssued`: what is completed was issued.

## Main results

* `mmcBlkStatusError_iff`: `mmc_blk_status_error` follows the policy.
* `mmcBlkRqError_iff`: when `mmc_blk_rq_error` follows the policy.
* `mmcBlkMqRwRecovery_credits_iff`: when the recovery credits issued blocks only.
-/

namespace LinuxDriver.Mmc

/-! ### Error bits of the responses -/

/-- The host has reported no error. -/
structure RwOutcome.NoHostError (o : RwOutcome) : Prop where
  sbc : o.sbcError = 0
  cmd : o.cmdError = 0
  stop : o.stopError = 0
  data : o.dataError = 0

/-- The command has an error bit, or the stop command has one that counts in the mode of the
transfer. -/
def RespError (brq : BlkRequest) (o : RwOutcome) : Prop :=
  o.cmdResp &&& cmdErrors ≠ 0 ∨ o.stopResp &&& mmcBlkStopErrBits brq ≠ 0

/-- An open-ended transfer, the stop response of which has `OUT_OF_RANGE` and another error bit. -/
structure ErrorBesideOor (brq : BlkRequest) (o : RwOutcome) : Prop where
  openEnded : brq.sbc = none
  oor : o.stopResp &&& r1OutOfRange ≠ 0
  other : o.stopResp &&& cmdErrorsExclOor ≠ 0

section Responses

variable (brq : BlkRequest) (o : RwOutcome)

/-- On a status without error bits, of a card in the state `tran`, `mmc_blk_status_error` follows
the policy. -/
theorem mmcBlkStatusError_iff (dir : DataDir) {status : BitVec 32}
    (hstatus : status &&& cmdErrors = 0) (htran : mmcBlkInTranState status = true) :
    mmcBlkStatusError false dir brq o status = true ↔ RespError brq o := by
  have hclear : status &&& mmcBlkStopErrBits brq = 0 := by
    unfold mmcBlkStopErrBits
    split
    · exact hstatus
    · rw [cmdErrorsExclOor, ← BitVec.and_assoc, hstatus]
      exact BitVec.zero_and
  simp [mmcBlkStatusError, RespError, hclear, htran]

theorem and_cmdErrors_eq_or (resp : BitVec 32) :
    resp &&& cmdErrors = (resp &&& cmdErrorsExclOor) ||| (resp &&& r1OutOfRange) := by
  have hsplit : cmdErrors = cmdErrorsExclOor ||| r1OutOfRange := by decide
  conv_lhs => rw [hsplit]
  exact BitVec.and_or_distrib_left

theorem and_cmdErrors_ne_zero (resp : BitVec 32) :
    resp &&& cmdErrors ≠ 0 ↔ resp &&& cmdErrorsExclOor ≠ 0 ∨ resp &&& r1OutOfRange ≠ 0 := by
  rw [and_cmdErrors_eq_or]
  exact (not_congr BitVec.or_eq_zero_iff).trans not_and_or

theorem and_cmdErrors_and_oor (resp : BitVec 32) :
    resp &&& cmdErrors &&& r1OutOfRange = resp &&& r1OutOfRange := by
  have hmem : cmdErrors &&& r1OutOfRange = r1OutOfRange := by decide
  rw [BitVec.and_assoc, hmem]

variable {o} in
/-- `mmc_blk_eval_resp_error` on a stop command without an error. -/
theorem mmcBlkEvalRespError_ne_zero (hstop : o.stopError = 0) :
    mmcBlkEvalRespError brq o ≠ 0 ↔
      o.stopResp &&& cmdErrors ≠ 0 ∧ ¬(o.stopResp &&& r1OutOfRange ≠ 0 ∧ brq.sbc = none) := by
  rw [mmcBlkEvalRespError, if_pos hstop]
  simp only [and_cmdErrors_and_oor, Option.isNone_iff_eq_none, hstop]
  split_ifs with h
  · exact iff_of_true (by decide) h
  · exact iff_of_false (not_not.mpr rfl) h

variable {o} in
/-- **The two paths.** Where the host has reported no error, `mmc_blk_rq_error` follows the policy
unless the stop response of an open-ended transfer has another error bit beside `OUT_OF_RANGE`, and
the command none. -/
theorem mmcBlkRqError_iff (h : o.NoHostError) :
    (mmcBlkRqError brq o = true ↔ RespError brq o) ↔
      ¬(ErrorBesideOor brq o ∧ o.cmdResp &&& cmdErrors = 0) := by
  have hrq : mmcBlkRqError brq o = true ↔
      mmcBlkEvalRespError brq o ≠ 0 ∨ o.cmdResp &&& cmdErrors ≠ 0 := by
    simp [mmcBlkRqError, h.sbc, h.cmd, h.data]
  rw [hrq, mmcBlkEvalRespError_ne_zero brq h.stop, RespError]
  by_cases hcmd : o.cmdResp &&& cmdErrors = 0
  swap
  · exact iff_of_true (iff_of_true (.inr hcmd) (.inl hcmd)) fun hboth => hcmd hboth.2
  cases hsbc : brq.sbc with
  | some sbc =>
    have hbits : mmcBlkStopErrBits brq = cmdErrors := by simp [mmcBlkStopErrBits, hsbc]
    have hboth : ¬(ErrorBesideOor brq o ∧ o.cmdResp &&& cmdErrors = 0) := by
      rintro ⟨hbeside, -⟩
      rw [hbeside.openEnded] at hsbc
      cases hsbc
    refine iff_of_true ?_ hboth
    simp [hbits, hcmd]
  | none =>
    have hbits : mmcBlkStopErrBits brq = cmdErrorsExclOor := by simp [mmcBlkStopErrBits, hsbc]
    have hbeside : ErrorBesideOor brq o ↔
        o.stopResp &&& r1OutOfRange ≠ 0 ∧ o.stopResp &&& cmdErrorsExclOor ≠ 0 :=
      ⟨fun h => ⟨h.oor, h.other⟩, fun h => ⟨hsbc, h.1, h.2⟩⟩
    rw [hbeside, hbits, and_cmdErrors_ne_zero]
    simp only [hcmd, ne_eq, not_true_eq_false, or_false, false_or, and_true]
    tauto

end Responses

/-- A host that takes the given number of blocks at a time, and a card without any of the optional
features. -/
def plainQueue (maxBlkCount : ℕ) (h : 1 ≤ maxBlkCount) : Queue where
  host := ⟨false, maxBlkCount, none, h⟩
  card := ⟨true, false, 0, 0, true⟩
  blkdata := ⟨false, false, 1000⟩

/-- Two sectors, read in one open-ended transfer. -/
def openEndedRead : BlkRequest :=
  mmcBlkRwRqPrep (plainQueue 8 (Nat.succ_pos 7)) readSingleSampleRequest [1024] false

/-- A transfer after which the stop response has the given bits. -/
def stopSampleOutcome (stopResp : BitVec 32) : RwOutcome :=
  { rwSampleOutcome 0 1024 with stopResp := stopResp }

theorem stopSampleOutcome_noHostError (stopResp : BitVec 32) :
    (stopSampleOutcome stopResp).NoHostError :=
  ⟨rfl, rfl, rfl, rfl⟩

theorem mmcBlkRqError_iff_sample :
    mmcBlkRqError openEndedRead (stopSampleOutcome (1 <<< 19)) = true ↔
      RespError openEndedRead (stopSampleOutcome (1 <<< 19)) := by
  refine (mmcBlkRqError_iff openEndedRead (stopSampleOutcome_noHostError _)).mpr ?_
  rintro ⟨hbeside, -⟩
  exact hbeside.oor (by decide)

/-- A general error beside `OUT_OF_RANGE` is forgiven with it. -/
theorem mmcBlkRqError_forgives_error :
    openEndedRead.stop.isSome = true ∧ openEndedRead.sbc = none ∧
      (stopSampleOutcome (1 <<< 31 ||| 1 <<< 19)).NoHostError ∧
      RespError openEndedRead (stopSampleOutcome (1 <<< 31 ||| 1 <<< 19)) ∧
      mmcBlkRqError openEndedRead (stopSampleOutcome (1 <<< 31 ||| 1 <<< 19)) = false :=
  ⟨by decide, by rfl, ⟨rfl, rfl, rfl, rfl⟩, .inr (by decide), by decide⟩

/-! ### The blocks that the card has recorded -/

section Credits

variable (spi : Bool) (o : RwOutcome)

/-- The recovery gets to the question how many blocks an SD card has recorded of a write, and the
card answers. -/
def CountsBlocks : Prop :=
  let status := if o.statusErr ≠ 0 then o.status2 else o.status
  let err := if o.statusErr ≠ 0 then o.statusErr2 else o.statusErr
  ¬(err ≠ 0 ∧ o.cardRemoved = true) ∧
    (if spi = false ∧ (err ≠ 0 ∨ mmcBlkInTranState status = false) then o.fixStateErr else err) = 0 ∧
      mmcBlkCmdStarted o = true ∧ o.numWrBlocksErr = 0

instance : Decidable (CountsBlocks spi o) := inferInstanceAs (Decidable (_ ∧ _ ∧ _ ∧ _))

variable {spi o} {dir : DataDir} {brq : BlkRequest} {mqrq : QueueReq}

/-- The bytes after the recovery from a write to an SD card: those that the card has recorded, or no
more than before. -/
theorem mmcBlkMqRwRecovery_write_bytes :
    (CountsBlocks spi o →
      (mmcBlkMqRwRecovery spi true .write brq mqrq o).bytesXfered = (o.numWrBlocks <<< 9) % 2 ^ 32) ∧
    (¬CountsBlocks spi o →
      (mmcBlkMqRwRecovery spi true .write brq mqrq o).bytesXfered ≤ mqrq.bytesXfered) := by
  rw [mmcBlkMqRwRecovery, CountsBlocks]
  dsimp only
  generalize (if o.statusErr ≠ 0 then o.statusErr2 else o.statusErr) = err
  generalize hbytes : (if o.statusErr ≠ 0 ∨ mmcBlkStatusError spi .write brq o o.status = true
    then 0 else mqrq.bytesXfered) = bytes
  have hkept : bytes ≤ mqrq.bytesXfered := by
    rw [← hbytes]
    split
    · exact Nat.zero_le _
    · exact le_rfl
  by_cases hremoved : err ≠ 0 ∧ o.cardRemoved = true
  · rw [if_pos hremoved]
    exact ⟨fun h => absurd hremoved h.1, fun _ => hkept⟩
  · rw [if_neg hremoved, recoveryEnd_bytes]
    generalize (if spi = false ∧ (err ≠ 0 ∨
      mmcBlkInTranState (if o.statusErr ≠ 0 then o.status2 else o.status) = false) then
        o.fixStateErr else err) = err'
    by_cases hasks : err' = 0 ∧ mmcBlkCmdStarted o = true
    · rw [if_pos ⟨hasks.1, hasks.2, rfl, rfl⟩]
      by_cases herr : o.numWrBlocksErr = 0
      · rw [if_neg (not_not.mpr herr)]
        exact ⟨fun _ => rfl, fun h => absurd ⟨hremoved, hasks.1, hasks.2, herr⟩ h⟩
      · rw [if_pos herr]
        exact ⟨fun h => absurd h.2.2.2 herr, fun _ => Nat.zero_le _⟩
    · rw [if_neg fun h => hasks ⟨h.1, h.2.1⟩]
      exact ⟨fun h => absurd ⟨h.2.1, h.2.2.1⟩ hasks, fun _ => hkept⟩

/-- An attempt of `blocks` blocks has not more of them to its credit, and what `complete_rq` ends
with `BLK_STS_OK` are sectors that it has issued. -/
structure CreditsIssued (B : BlockLayer) (s : RwState) (blocks : ℕ) (mqrq : QueueReq) : Prop where
  bytes : mqrq.bytesXfered ≤ blocks * 512
  done : ∀ c ∈ (mmcBlkMqCompleteRq B s mqrq).okDone,
    c ∈ s.okDone ∨ c.pos = s.req.pos ∧ c.size ≤ blocks

theorem creditsIssued_of_bytes (B : BlockLayer) (s : RwState) {blocks : ℕ}
    (h : mqrq.bytesXfered ≤ blocks * 512) : CreditsIssued B s blocks mqrq where
  bytes := h
  done := by
    intro c hc
    simp only [mmcBlkMqCompleteRq] at hc
    split_ifs at hc
    · rcases List.mem_cons.mp hc with rfl | hold
      · exact .inr ⟨rfl, by simp only; omega⟩
      · exact .inl hold
    all_goals exact .inl hc

/-- **Credited blocks.** Where the host has not reported more than was issued, the recovery from a
write to an SD card credits issued blocks only, unless the card counts more. The count is shifted in
32 bits. -/
theorem mmcBlkMqRwRecovery_credits_iff (B : BlockLayer) (s : RwState) (brq : BlkRequest)
    (hhost : mqrq.bytesXfered ≤ brq.data.blocks * 512) :
    CreditsIssued B s brq.data.blocks (mmcBlkMqRwRecovery spi true .write brq mqrq o) ↔
      ¬(CountsBlocks spi o ∧ brq.data.blocks * 512 < o.numWrBlocks * 512 % 2 ^ 32) := by
  obtain ⟨hcount, hkept⟩ := @mmcBlkMqRwRecovery_write_bytes spi o brq mqrq
  rw [Nat.shiftLeft_eq] at hcount
  by_cases hasks : CountsBlocks spi o
  · constructor
    · rintro ⟨hbytes, -⟩ ⟨-, hmore⟩
      rw [hcount hasks] at hbytes
      exact absurd hbytes (Nat.not_le.mpr hmore)
    · intro h
      refine creditsIssued_of_bytes B s ?_
      rw [hcount hasks]
      exact Nat.le_of_not_lt fun hmore => h ⟨hasks, hmore⟩
  · exact iff_of_true (creditsIssued_of_bytes B s ((hkept hasks).trans hhost)) fun h => hasks h.1

end Credits

/-- A write of eight sectors. -/
def writeSampleRequest : Request := ⟨8, 8, .write, false, false, by decide⟩

/-- The first block of the write is issued and fails, and the card says that it has recorded the
given number of blocks. -/
def wrBlocksOutcome (n : ℕ) : RwOutcome := { rwSampleOutcome (-84) 0 with numWrBlocks := n }

/-- The transfer of the first block. -/
def writeSampleBrq : BlkRequest := mmcBlkRwRqPrep (plainQueue 1 le_rfl) writeSampleRequest [4096] false

theorem mmcBlkMqRwRecovery_credits_iff_sample :
    CreditsIssued flatBlockLayer (.init writeSampleRequest 0) writeSampleBrq.data.blocks
      (mmcBlkMqRwRecovery false true .write writeSampleBrq ⟨0, 0⟩ (wrBlocksOutcome 1)) :=
  (mmcBlkMqRwRecovery_credits_iff flatBlockLayer (.init writeSampleRequest 0) writeSampleBrq
    (Nat.zero_le _)).mpr (by decide)

/-- One block is issued, and all eight sectors are completed. -/
theorem mmcBlkMqRwRecovery_credits_unissued :
    writeSampleBrq.data.blocks = 1 ∧
      ¬CreditsIssued flatBlockLayer (.init writeSampleRequest 0) writeSampleBrq.data.blocks
        (mmcBlkMqRwRecovery false true .write writeSampleBrq ⟨0, 0⟩ (wrBlocksOutcome 8)) := by
  refine ⟨by decide, fun h => ?_⟩
  exact absurd h.bytes (by decide)

end LinuxDriver.Mmc
