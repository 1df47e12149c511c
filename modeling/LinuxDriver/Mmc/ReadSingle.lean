import LinuxDriver.Mmc.Prep

/-!
# Recovery from a read error, one sector at a time

`mmc_blk_read_single` reads what is left of a request sector by sector. After a command error with
retries left it executes `continue`, as if to try again. But the loop is a `do`-`while` loop, and
`continue` goes on with its condition: `blk_update_request(req, error, 512)` completes the sector
that was not read, with the value that `error` has from the sector before, which is `BLK_STS_OK` at
the start. So no sector is ever tried twice, and an unread one is completed as successful whenever
the attempt before it was good or there was none.

What the hardware answers is a stream of outcomes, one for each attempt. `blk_update_request` is the
block layer's, as is the mapping of the scatter list; what is used of it is that it takes the
sectors off the front of the request and says whether anything is left (`BlockLayer`).

## Main definitions

* `BlkStatus`, `BlockLayer`, `Outcome`.
* `readSingleBody`, `readSingleLoop`, `mmcBlkReadSingle`.
* `Event`, `Honest`: what the completions of the sectors promise.
* `FailedBefore`, `ErrorsFollowFailures`: when the value carried over is an error.

## Main results

* `mmcBlkReadSingle_honest_iff`: the promise is kept exactly when every command error follows a
  failed attempt.
-/

namespace LinuxDriver.Mmc

/-! ### The block layer -/

/-- The values `BLK_STS_OK` and `BLK_STS_IOERR` of `blk_status_t`. -/
inductive BlkStatus
  | ok
  | ioerr
  deriving DecidableEq

/-- The block layer: the mapping of the scatter list of a request, and `blk_update_request`, which
ends a number of bytes of a request and returns whether any are left. -/
structure BlockLayer where
  mapSg : Request → List ℕ
  blkUpdateRequest : Request → BlkStatus → ℕ → Bool × Request
  more : ∀ req e n, (blkUpdateRequest req e (512 * n)).1 = true ↔ n < req.sectors
  rest : ∀ req e n, n < req.sectors → (blkUpdateRequest req e (512 * n)).2 = req.advance n

/-- A block layer with one entry for each scatter list. -/
def flatBlockLayer : BlockLayer where
  mapSg req := [req.sectors * 512]
  blkUpdateRequest req _ n := (n / 512 < req.sectors, req.advance (n / 512))
  more req _ n := by simp
  rest req _ n _ := by simp

/-! ### Outcomes of an attempt -/

/-- `R1_OUT_OF_RANGE` and the other bits of `CMD_ERRORS`. -/
def cmdErrors : BitVec 32 :=
  (1 <<< 31) ||| (1 <<< 30) ||| (1 <<< 29) ||| (1 <<< 26) ||| (1 <<< 21) ||| (1 <<< 20) |||
    (1 <<< 19)

/-- `mmc_blk_in_tran_state`: the bit `R1_READY_FOR_DATA`, and the state `R1_STATE_TRAN`. -/
def mmcBlkInTranState (status : BitVec 32) : Bool :=
  status &&& (1 <<< 8) ≠ 0 && (status &&& 0x1E00) >>> 9 = 4

/-- What one attempt brings: the errors of the command and of the data, the response of the
command and the bytes transferred; the result of `mmc_send_status` and the status it read; and the
result of `mmc_blk_fix_state`. -/
structure Outcome where
  cmdError : ℤ
  dataError : ℤ
  resp : BitVec 32
  bytesXfered : ℕ
  statusErr : ℤ
  status : BitVec 32
  fixStateErr : ℤ

/-- The attempt ended without a command error, without a data error, and off SPI without an error
bit in the response or the status. -/
structure Outcome.Clean (spi : Bool) (o : Outcome) : Prop where
  cmd : o.cmdError = 0
  data : o.dataError = 0
  bits : spi = false → o.resp &&& cmdErrors = 0 ∧ o.status &&& cmdErrors = 0

/-- The status command failed, or the card could not be brought back to the state `tran`. -/
def Outcome.Exits (spi : Bool) (o : Outcome) : Prop :=
  o.statusErr ≠ 0 ∨ (spi = false ∧ mmcBlkInTranState o.status = false ∧ o.fixStateErr ≠ 0)

instance (spi : Bool) (o : Outcome) : Decidable (o.Exits spi) :=
  inferInstanceAs (Decidable (_ ∨ _))

/-! ### The loop -/

/-- `MMC_READ_SINGLE_RETRIES` -/
def mmcReadSingleRetries : ℕ := 2

/-- `MMC_MAX_RETRIES` -/
def mmcMaxRetries : ℕ := 5

/-- The local variables of `mmc_blk_read_single`. -/
structure ReadSingleVars where
  error : BlkStatus
  retries : ℕ
  deriving DecidableEq

/-- The body of the loop, from the outcome of its attempt; `none` where it jumps to `error_exit`.
Both ends of the body, `continue` and the last line, lead to the condition of the loop. -/
def readSingleBody (spi : Bool) (v : ReadSingleVars) (o : Outcome) : Option ReadSingleVars :=
  if o.statusErr ≠ 0 then none
  else if spi = false ∧ mmcBlkInTranState o.status = false ∧ o.fixStateErr ≠ 0 then none
  else if o.cmdError ≠ 0 ∧ v.retries < mmcReadSingleRetries then
    -- `continue`
    some { v with retries := v.retries + 1 }
  else if o.cmdError ≠ 0 ∨ o.dataError ≠ 0 ∨
      (spi = false ∧ (o.resp &&& cmdErrors ≠ 0 ∨ o.status &&& cmdErrors ≠ 0)) then
    some ⟨.ioerr, 0⟩
  else some ⟨.ok, 0⟩

/-- An attempt to transfer sectors, with its outcome, or the completion of a sector. -/
inductive Event
  | attempt (brq : BlkRequest) (o : Outcome)
  | complete (s : ℕ) (status : BlkStatus)

/-- The part of a `mmc_queue_req` that outlives the call. -/
structure QueueReq where
  retries : ℕ
  bytesXfered : ℕ

/-- What a call leaves: the log of its events, the newest first, the queue request, and what is
left of the request. -/
structure ReadSingle where
  log : List Event
  mqrq : QueueReq
  req : Request

variable (B : BlockLayer) (mq : Queue)

/-- The loop of `mmc_blk_read_single`. -/
def readSingleLoop (v : ReadSingleVars) (mqrq : QueueReq) (req : Request) (log : List Event)
    (outcomes : Stream' Outcome) : ReadSingle :=
  let o := outcomes.head
  let log := .attempt (mmcBlkRwRqPrep mq req (B.mapSg req) true) o :: log
  match readSingleBody mq.host.spi v o with
  | none =>
    { log := .complete req.pos .ioerr :: log
      mqrq :=
        { bytesXfered := 0
          retries := if mqrq.retries > mmcMaxRetries - 1 then mmcMaxRetries - 1 else mqrq.retries }
      req := (B.blkUpdateRequest req .ioerr 512).2 }
  | some v =>
    let log := .complete req.pos v.error :: log
    let mqrq := { mqrq with bytesXfered := o.bytesXfered }
    if _h : (B.blkUpdateRequest req v.error 512).1 = true then
      readSingleLoop v mqrq (B.blkUpdateRequest req v.error 512).2 log outcomes.tail
    else ⟨log, mqrq, (B.blkUpdateRequest req v.error 512).2⟩
  termination_by req.sectors
  decreasing_by
    have hlt := (B.more req v.error 1).mp _h
    rw [B.rest req v.error 1 hlt, Request.advance_sectors]
    omega

/-- `mmc_blk_read_single` -/
def mmcBlkReadSingle (mqrq : QueueReq) (req : Request) (outcomes : Stream' Outcome) : ReadSingle :=
  readSingleLoop B mq ⟨.ok, 0⟩ mqrq req [] outcomes

/-! ### What the completions promise -/

/-- The outcome of the event, if it is a single-block read of sector `s`. -/
def Event.readOutcome (card : Card) (s : ℕ) : Event → Option Outcome
  | .attempt brq o => if brq.ReadsSector card s then some o else none
  | .complete _ _ => none

/-- The outcome of the most recent single-block read of sector `s`. -/
def lastRead (card : Card) (s : ℕ) (log : List Event) : Option Outcome :=
  log.findSome? (Event.readOutcome card s)

/-- The number of single-block reads of sector `s`. -/
def attempts (card : Card) (s : ℕ) (log : List Event) : ℕ :=
  log.countP fun e => (e.readOutcome card s).isSome

/-- The completions in a log are honest: a sector is completed with `BLK_STS_OK` only when the most
recent single-block read of it was clean, and with an error after at most
`MMC_READ_SINGLE_RETRIES + 1` of them. -/
structure Honest (mq : Queue) (log : List Event) : Prop where
  ok : ∀ s before, (.complete s .ok :: before) <:+ log →
    ∃ o, lastRead mq.card s before = some o ∧ o.Clean mq.host.spi
  ioerr : ∀ s before, (.complete s .ioerr :: before) <:+ log →
    attempts mq.card s before ≤ mmcReadSingleRetries + 1

/-- Whether the attempt before attempt `i` failed; `failed` stands for the one before the first. -/
def FailedBefore (spi : Bool) (failed : Prop) (outcomes : Stream' Outcome) : ℕ → Prop
  | 0 => failed
  | i + 1 => ¬(outcomes.get i).Clean spi

/-- Among the first `n` attempts, every one that is made and has a command error, but not the jump
to `error_exit`, follows a failed attempt. -/
def ErrorsFollowFailures (spi : Bool) (failed : Prop) (outcomes : Stream' Outcome) (n : ℕ) : Prop :=
  ∀ i < n, (∀ j ≤ i, ¬(outcomes.get j).Exits spi) → (outcomes.get i).cmdError ≠ 0 →
    FailedBefore spi failed outcomes i

/-! ### One round of the loop -/

variable {B mq} {card : Card} {spi : Bool} {v : ReadSingleVars} {o : Outcome}

/-- What the body of the loop does: it exits; or it goes on after a command error, with the old
value of `error`; or it sets `error` by whether the attempt was clean. -/
theorem readSingleBody_cases (spi : Bool) (v : ReadSingleVars) (o : Outcome) :
    (o.Exits spi ∧ readSingleBody spi v o = none) ∨
    (¬o.Exits spi ∧ o.cmdError ≠ 0 ∧ v.retries < mmcReadSingleRetries ∧
      readSingleBody spi v o = some ⟨v.error, v.retries + 1⟩) ∨
    (¬o.Exits spi ∧ (o.cmdError ≠ 0 → mmcReadSingleRetries ≤ v.retries) ∧
      ((o.Clean spi ∧ readSingleBody spi v o = some ⟨.ok, 0⟩) ∨
        (¬o.Clean spi ∧ readSingleBody spi v o = some ⟨.ioerr, 0⟩))) := by
  by_cases hstatus : o.statusErr ≠ 0
  · exact .inl ⟨.inl hstatus, if_pos hstatus⟩
  by_cases hfix : spi = false ∧ mmcBlkInTranState o.status = false ∧ o.fixStateErr ≠ 0
  · exact .inl ⟨.inr hfix, by rw [readSingleBody, if_neg hstatus, if_pos hfix]⟩
  have hexits : ¬o.Exits spi := not_or.mpr ⟨hstatus, hfix⟩
  by_cases hretry : o.cmdError ≠ 0 ∧ v.retries < mmcReadSingleRetries
  · refine .inr (.inl ⟨hexits, hretry.1, hretry.2, ?_⟩)
    rw [readSingleBody, if_neg hstatus, if_neg hfix, if_pos hretry]
  refine .inr (.inr ⟨hexits, fun herror => not_lt.mp fun hlt => hretry ⟨herror, hlt⟩, ?_⟩)
  by_cases hfailed : o.cmdError ≠ 0 ∨ o.dataError ≠ 0 ∨
      (spi = false ∧ (o.resp &&& cmdErrors ≠ 0 ∨ o.status &&& cmdErrors ≠ 0))
  · refine .inr ⟨fun hclean => ?_, ?_⟩
    · rcases hfailed with hcmd | hdata | ⟨hspi, hbits⟩
      · exact hcmd hclean.cmd
      · exact hdata hclean.data
      · have hzero := hclean.bits hspi
        exact hbits.elim (fun h => h hzero.1) fun h => h hzero.2
    · rw [readSingleBody, if_neg hstatus, if_neg hfix, if_neg hretry, if_pos hfailed]
  · refine .inl ⟨?_, ?_⟩
    · simp only [not_or, not_and, not_not] at hfailed
      exact ⟨hfailed.1, hfailed.2.1, hfailed.2.2⟩
    · rw [readSingleBody, if_neg hstatus, if_neg hfix, if_neg hretry, if_neg hfailed]

/-! ### Logs -/

theorem Honest.nil : Honest mq [] where
  ok _ _ h := absurd (List.suffix_nil.mp h) (List.cons_ne_nil _ _)
  ioerr _ _ h := absurd (List.suffix_nil.mp h) (List.cons_ne_nil _ _)

theorem Honest.suffix {log log' : List Event} (h : Honest mq log') (hlog : log <:+ log') :
    Honest mq log where
  ok s before hb := h.ok s before (hb.trans hlog)
  ioerr s before hb := h.ioerr s before (hb.trans hlog)

theorem honest_attempt_iff {brq : BlkRequest} {log : List Event} :
    Honest mq (.attempt brq o :: log) ↔ Honest mq log := by
  refine ⟨fun h => h.suffix (List.suffix_cons _ _), fun h => ⟨?_, ?_⟩⟩ <;>
    intro s before hb <;> rcases List.suffix_cons_iff.mp hb with heq | hb
  · cases heq
  · exact h.ok s before hb
  · cases heq
  · exact h.ioerr s before hb

theorem honest_complete_iff {s : ℕ} {status : BlkStatus} {log : List Event} :
    Honest mq (.complete s status :: log) ↔
      (status = .ok → ∃ o, lastRead mq.card s log = some o ∧ o.Clean mq.host.spi) ∧
      (status = .ioerr → attempts mq.card s log ≤ mmcReadSingleRetries + 1) ∧
      Honest mq log := by
  constructor
  · intro h
    refine ⟨?_, ?_, h.suffix (List.suffix_cons _ _)⟩
    · rintro rfl
      exact h.ok s log List.suffix_rfl
    · rintro rfl
      exact h.ioerr s log List.suffix_rfl
  · rintro ⟨hok, hioerr, h⟩
    constructor <;> intro t before hb <;> rcases List.suffix_cons_iff.mp hb with heq | hb
    · cases heq
      exact hok rfl
    · exact h.ok t before hb
    · cases heq
      exact hioerr rfl
    · exact h.ioerr t before hb

/-- The attempts in the log are single-block reads of sectors before the rest `req` of a request
that has fewer than `2 ^ 23` sectors in all. -/
def ReadsBefore (card : Card) (req : Request) (log : List Event) : Prop :=
  ∀ brq o, .attempt brq o ∈ log → ∃ s < req.pos, brq.cmd.arg = card.sectorArg s ∧
    req.pos + req.sectors < s + 2 ^ 23

/-- The first sector of the rest was not read before. -/
theorem ReadsBefore.attempts_eq_zero {req : Request} {log : List Event}
    (h : ReadsBefore card req log) (hpos : 0 < req.sectors) : attempts card req.pos log = 0 := by
  refine List.countP_eq_zero.mpr fun e he => ?_
  cases e with
  | complete s status => simp [Event.readOutcome]
  | attempt brq o =>
    obtain ⟨s, hs, harg, hnear⟩ := h brq o he
    have hother : ¬brq.ReadsSector card req.pos := fun hreads =>
      sectorArg_inj card hs (by omega) (harg.symm.trans hreads.2)
    simp [Event.readOutcome, hother]

/-- The completion of a sector right after the first attempt to read it is honest unless it reports
success for an attempt that was not clean. -/
theorem honest_round_iff {req : Request} {sg : List ℕ} {log : List Event} {status : BlkStatus}
    (hread : req.dir = .read) (hpos : 0 < req.sectors) (hbefore : ReadsBefore mq.card req log) :
    Honest mq (.complete req.pos status :: .attempt (mmcBlkRwRqPrep mq req sg true) o :: log) ↔
      (status = .ok → o.Clean mq.host.spi) ∧ Honest mq log := by
  have hreads := (mmcBlkRwRqPrep_single mq sg hread hpos).1
  have hlast : lastRead mq.card req.pos (.attempt (mmcBlkRwRqPrep mq req sg true) o :: log) =
      some o := by
    simp [lastRead, Event.readOutcome, hreads]
  have hattempts : attempts mq.card req.pos
      (.attempt (mmcBlkRwRqPrep mq req sg true) o :: log) = 1 := by
    rw [attempts, List.countP_cons_of_pos (by simp [Event.readOutcome, hreads]), ← attempts,
      hbefore.attempts_eq_zero hpos]
  rw [honest_complete_iff, honest_attempt_iff, hlast, hattempts]
  simp [mmcReadSingleRetries]

/-- One round keeps the attempts of the log before the rest of the request. -/
theorem ReadsBefore.round {req : Request} {sg : List ℕ} {log : List Event} {status : BlkStatus}
    (h : ReadsBefore mq.card req log) (hread : req.dir = .read) (hpos : 0 < req.sectors) :
    ReadsBefore mq.card (req.advance 1)
      (.complete req.pos status :: .attempt (mmcBlkRwRqPrep mq req sg true) o :: log) := by
  have hlt := req.sectors_lt
  intro brq o' hmem
  simp only [List.mem_cons, reduceCtorEq, false_or, Event.attempt.injEq] at hmem
  rcases hmem with ⟨rfl, rfl⟩ | hmem
  · refine ⟨req.pos, by simp, (mmcBlkRwRqPrep_single mq sg hread hpos).1.2, ?_⟩
    simp only [Request.advance_pos, Request.advance_sectors]
    omega
  · obtain ⟨s, hs, harg, hnear⟩ := h brq o' hmem
    refine ⟨s, ?_, harg, ?_⟩ <;> simp only [Request.advance_pos, Request.advance_sectors] <;> omega

/-! ### Whole calls -/

theorem errorsFollowFailures_succ {failed : Prop} {outcomes : Stream' Outcome} {n : ℕ} :
    ErrorsFollowFailures spi failed outcomes (n + 1) ↔
      (¬outcomes.head.Exits spi → (outcomes.head.cmdError ≠ 0 → failed) ∧
        ErrorsFollowFailures spi (¬outcomes.head.Clean spi) outcomes.tail n) := by
  constructor
  · intro h hexits
    refine ⟨fun herror => h 0 (by omega) (fun j hj => ?_) herror, fun i hi hmade herror => ?_⟩
    · obtain rfl : j = 0 := by omega
      exact hexits
    · have hi' := h (i + 1) (by omega) (fun j hj => ?_) herror
      · cases i with
        | zero => exact hi'
        | succ i => exact hi'
      · cases j with
        | zero => exact hexits
        | succ j => exact hmade j (by omega)
  · intro h i hi hmade herror
    have h := h (hmade 0 (by omega))
    cases i with
    | zero => exact h.1 herror
    | succ i =>
      have hi' := h.2 i (by omega) (fun j hj => hmade (j + 1) (by omega)) herror
      cases i with
      | zero => exact hi'
      | succ i => exact hi'

/-- The log after the first round of the loop. -/
def roundLog (B : BlockLayer) (mq : Queue) (req : Request) (o : Outcome) (status : BlkStatus)
    (log : List Event) : List Event :=
  .complete req.pos status :: .attempt (mmcBlkRwRqPrep mq req (B.mapSg req) true) o :: log

section Loop

variable {mqrq : QueueReq} {req : Request} {log : List Event} {outcomes : Stream' Outcome}

theorem readSingleLoop_exit (hbody : readSingleBody mq.host.spi v outcomes.head = none) :
    (readSingleLoop B mq v mqrq req log outcomes).log =
      roundLog B mq req outcomes.head .ioerr log := by
  rw [readSingleLoop, hbody]
  rfl

theorem readSingleLoop_last {v' : ReadSingleVars} (hlast : req.sectors ≤ 1)
    (hbody : readSingleBody mq.host.spi v outcomes.head = some v') :
    (readSingleLoop B mq v mqrq req log outcomes).log =
      roundLog B mq req outcomes.head v'.error log := by
  have hmore : ¬(B.blkUpdateRequest req v'.error 512).1 = true := fun h =>
    absurd ((B.more req v'.error 1).mp h) (by omega)
  rw [readSingleLoop, hbody]
  simp only [dif_neg hmore]
  rfl

theorem readSingleLoop_next {v' : ReadSingleVars} (hmore : 1 < req.sectors)
    (hbody : readSingleBody mq.host.spi v outcomes.head = some v') :
    readSingleLoop B mq v mqrq req log outcomes =
      readSingleLoop B mq v' { mqrq with bytesXfered := outcomes.head.bytesXfered }
        (req.advance 1) (roundLog B mq req outcomes.head v'.error log) outcomes.tail := by
  have htrue : (B.blkUpdateRequest req v'.error 512).1 = true :=
    (B.more req v'.error 1).mpr hmore
  have hrest : (B.blkUpdateRequest req v'.error 512).2 = req.advance 1 :=
    B.rest req v'.error 1 hmore
  rw [readSingleLoop, hbody]
  simp only [dif_pos htrue, hrest]
  rfl

end Loop

/-- The loop only adds to the log. -/
theorem suffix_readSingleLoop {n : ℕ} {mqrq : QueueReq} {req : Request} {log : List Event}
    {outcomes : Stream' Outcome} (hn : req.sectors ≤ n) :
    log <:+ (readSingleLoop B mq v mqrq req log outcomes).log := by
  have hround : ∀ status, log <:+ roundLog B mq req outcomes.head status log := fun status =>
    (List.suffix_cons _ _).trans (List.suffix_cons _ _)
  induction n generalizing v mqrq req log outcomes with
  | zero =>
    cases hbody : readSingleBody mq.host.spi v outcomes.head with
    | none => rw [readSingleLoop_exit hbody]; exact hround _
    | some v' => rw [readSingleLoop_last (by omega) hbody]; exact hround _
  | succ n ih =>
    cases hbody : readSingleBody mq.host.spi v outcomes.head with
    | none => rw [readSingleLoop_exit hbody]; exact hround _
    | some v' =>
      by_cases hmore : 1 < req.sectors
      · rw [readSingleLoop_next hmore hbody]
        refine (hround v'.error).trans (ih (by simp only [Request.advance_sectors]; omega) ?_)
        exact fun status => (List.suffix_cons _ _).trans (List.suffix_cons _ _)
      · rw [readSingleLoop_last (by omega) hbody]
        exact hround _

/-- A round of the loop that reads `error` as the failure of the attempt before: it exits; or it
carries `BLK_STS_OK` over a command error; or it takes a command error only after a failure, and
`error` then says whether its own attempt failed. -/
theorem readSingleBody_round (spi : Bool) (o : Outcome) (hvars : v.error = .ok → v.retries = 0) :
    (o.Exits spi ∧ readSingleBody spi v o = none) ∨
    (¬o.Exits spi ∧ o.cmdError ≠ 0 ∧ v.error = .ok ∧
      ∃ v', readSingleBody spi v o = some v' ∧ v'.error = .ok) ∨
    (¬o.Exits spi ∧ (o.cmdError ≠ 0 → v.error = .ioerr) ∧
      ∃ v', readSingleBody spi v o = some v' ∧ (v'.error = .ioerr ↔ ¬o.Clean spi) ∧
        (v'.error = .ok → v'.retries = 0)) := by
  rcases readSingleBody_cases spi v o with
    hexit | ⟨hexits, herror, -, hbody⟩ | ⟨hexits, hretries, hset⟩
  · exact .inl hexit
  · have hfailed : ¬o.Clean spi := fun h => herror h.cmd
    cases hv : v.error with
    | ok => exact .inr (.inl ⟨hexits, herror, rfl, _, hbody, hv⟩)
    | ioerr =>
      exact .inr (.inr ⟨hexits, fun _ => rfl, _, hbody, by simp [hv, hfailed], by simp [hv]⟩)
  · have hcarried : o.cmdError ≠ 0 → v.error = .ioerr := by
      intro herror
      cases hv : v.error with
      | ok =>
        have hspent := hretries herror
        rw [hvars hv, mmcReadSingleRetries] at hspent
        omega
      | ioerr => rfl
    rcases hset with ⟨hclean, hbody⟩ | ⟨hfailed, hbody⟩
    · exact .inr (.inr ⟨hexits, hcarried, _, hbody, by simp [hclean], fun _ => rfl⟩)
    · exact .inr (.inr ⟨hexits, hcarried, _, hbody, by simp [hfailed], fun _ => rfl⟩)

section Loop

variable {n : ℕ} {mqrq : QueueReq} {req : Request} {log : List Event} {outcomes : Stream' Outcome}

/-- After a round that does not exit, the completions are honest when that of the round is, and
those of the rounds that follow, if there are any. -/
theorem honest_readSingleLoop_some {v' : ReadSingleVars}
    (hbody : readSingleBody mq.host.spi v outcomes.head = some v') :
    Honest mq (readSingleLoop B mq v mqrq req log outcomes).log ↔
      Honest mq (roundLog B mq req outcomes.head v'.error log) ∧
      (1 < req.sectors →
        Honest mq (readSingleLoop B mq v' { mqrq with bytesXfered := outcomes.head.bytesXfered }
          (req.advance 1) (roundLog B mq req outcomes.head v'.error log) outcomes.tail).log) := by
  by_cases hmore : 1 < req.sectors
  · rw [readSingleLoop_next hmore hbody]
    exact ⟨fun h => ⟨h.suffix (suffix_readSingleLoop le_rfl), fun _ => h⟩, fun h => h.2 hmore⟩
  · rw [readSingleLoop_last (by omega) hbody]
    exact (and_iff_left fun h => absurd h hmore).symm

/-- The first round of the loop, when the later rounds are honest exactly when their command errors
follow failed attempts. -/
theorem honest_readSingleLoop_succ (hpos : 0 < req.sectors) (hread : req.dir = .read)
    (hbefore : ReadsBefore mq.card req log) (hlog : Honest mq log)
    (hvars : v.error = .ok → v.retries = 0)
    (hrest : ∀ v', (v'.error = .ioerr ↔ ¬outcomes.head.Clean mq.host.spi) →
      (v'.error = .ok → v'.retries = 0) →
      Honest mq (roundLog B mq req outcomes.head v'.error log) →
      ((1 < req.sectors →
        Honest mq (readSingleLoop B mq v' { mqrq with bytesXfered := outcomes.head.bytesXfered }
          (req.advance 1) (roundLog B mq req outcomes.head v'.error log) outcomes.tail).log) ↔
      ErrorsFollowFailures mq.host.spi (¬outcomes.head.Clean mq.host.spi) outcomes.tail n)) :
    Honest mq (readSingleLoop B mq v mqrq req log outcomes).log ↔
      ErrorsFollowFailures mq.host.spi (v.error = .ioerr) outcomes (n + 1) := by
  have hround : ∀ status, Honest mq (roundLog B mq req outcomes.head status log) ↔
      (status = .ok → outcomes.head.Clean mq.host.spi) := fun status =>
    (honest_round_iff hread hpos hbefore).trans (and_iff_left hlog)
  rw [errorsFollowFailures_succ]
  rcases readSingleBody_round mq.host.spi outcomes.head hvars with
    ⟨hexits, hbody⟩ | ⟨hexits, herror, hok, v', hbody, hok'⟩ |
      ⟨hexits, hcarried, v', hbody, hfailed, hfresh⟩
  · have hhonest : Honest mq (roundLog B mq req outcomes.head .ioerr log) := by
      rw [hround]
      simp
    rw [readSingleLoop_exit hbody]
    exact iff_of_true hhonest fun h => absurd hexits h
  · -- `BLK_STS_OK` for a sector that was not read
    refine iff_of_false (fun h => ?_) fun h => ?_
    · have hclean := (hround _).mp ((honest_readSingleLoop_some hbody).mp h).1 hok'
      exact herror hclean.cmd
    · have hioerr := (h hexits).1 herror
      rw [hok] at hioerr
      cases hioerr
  · have hhonest : Honest mq (roundLog B mq req outcomes.head v'.error log) := by
      refine (hround _).mpr fun hok => not_not.mp fun hdirty => ?_
      rw [hfailed.mpr hdirty] at hok
      cases hok
    rw [honest_readSingleLoop_some hbody, hrest v' hfailed hfresh hhonest]
    constructor
    · rintro ⟨-, h⟩ -
      exact ⟨hcarried, h⟩
    · intro h
      exact ⟨hhonest, (h hexits).2⟩

/-- From a round on, the completions are honest exactly when the command errors follow failed
attempts, where `error` stands for the attempt before the round. -/
theorem honest_readSingleLoop_iff (hn : req.sectors = n + 1) (hread : req.dir = .read)
    (hbefore : ReadsBefore mq.card req log) (hlog : Honest mq log)
    (hvars : v.error = .ok → v.retries = 0) :
    Honest mq (readSingleLoop B mq v mqrq req log outcomes).log ↔
      ErrorsFollowFailures mq.host.spi (v.error = .ioerr) outcomes (n + 1) := by
  have hpos : 0 < req.sectors := by omega
  induction n generalizing v mqrq req log outcomes with
  | zero =>
    refine honest_readSingleLoop_succ hpos hread hbefore hlog hvars fun v' _ _ _ => ?_
    exact iff_of_true (fun h => absurd h (by omega)) fun i hi => absurd hi (Nat.not_lt_zero i)
  | succ n ih =>
    refine honest_readSingleLoop_succ hpos hread hbefore hlog hvars
      fun v' hfailed hfresh hhonest => ?_
    have hn' : (req.advance 1).sectors = n + 1 := by
      rw [Request.advance_sectors]
      omega
    have hbefore' : ReadsBefore mq.card (req.advance 1)
        (roundLog B mq req outcomes.head v'.error log) := hbefore.round hread hpos
    refine (forall_prop_of_true (by omega)).trans ?_
    rw [← propext hfailed]
    exact ih hn' hread hbefore' hhonest hfresh (by omega)

end Loop

end LinuxDriver.Mmc

namespace LinuxDriver

open Mmc

/-- **Single-sector recovery.** For every read request and every sequence of outcomes, the
completions of `mmc_blk_read_single` are honest exactly when every attempt that is made and has a
command error, but not the jump to `error_exit`, follows a failed attempt of the same call. -/
theorem mmcBlkReadSingle_honest_iff (B : BlockLayer) (mq : Queue) (mqrq : QueueReq)
    {req : Mmc.Request} (hread : req.dir = .read) (hpos : 0 < req.sectors)
    (outcomes : Stream' Outcome) :
    Honest mq (mmcBlkReadSingle B mq mqrq req outcomes).log ↔
      ErrorsFollowFailures mq.host.spi False outcomes req.sectors := by
  obtain ⟨n, hn⟩ : ∃ n, req.sectors = n + 1 := ⟨req.sectors - 1, by omega⟩
  have hnone : ReadsBefore mq.card req [] := fun brq o h => absurd h List.not_mem_nil
  rw [mmcBlkReadSingle, honest_readSingleLoop_iff hn hread hnone Honest.nil fun _ => rfl, hn]
  simp

/-- An MMC host that is not SPI, with a byte-addressed card. -/
def readSingleSampleQueue : Queue where
  host := ⟨false, 1024, some renesasSdhiMultiIoQuirk, by norm_num⟩
  card := ⟨false, false, 1, 0, false⟩
  blkdata := ⟨false, true, 4096⟩

/-- A read request of the sectors `8` and `9`. -/
def readSingleSampleRequest : Mmc.Request := ⟨8, 2, .read, false, false, by norm_num⟩

/-- An attempt with the given errors of command and data, after which the card is in the state
`tran`. -/
def readSingleSampleOutcome (cmdError dataError : ℤ) : Outcome :=
  ⟨cmdError, dataError, 0x900, 512, 0, 0x900, 0⟩

/-- A command error that follows a data error is reported as an error. -/
theorem mmcBlkReadSingle_honest_iff_sample :
    Honest readSingleSampleQueue (mmcBlkReadSingle flatBlockLayer readSingleSampleQueue ⟨4, 0⟩
      readSingleSampleRequest
      fun i => if i = 0 then readSingleSampleOutcome 0 (-84) else
        readSingleSampleOutcome (-110) 0).log := by
  refine (mmcBlkReadSingle_honest_iff flatBlockLayer readSingleSampleQueue ⟨4, 0⟩ rfl
    (by decide) _).mpr fun i hi _ herror => ?_
  match i with
  | 0 => exact absurd rfl herror
  | i + 1 =>
    obtain rfl : i = 0 := by
      have hi : i + 1 < 2 := hi
      omega
    intro hclean
    exact absurd hclean.data (by decide)

/-- **The unread sector.** The command to read sector `8` times out, and the sector is completed
with `BLK_STS_OK`. -/
theorem mmcBlkReadSingle_unread_ok :
    let outcomes : Stream' Outcome := fun i =>
      if i = 0 then readSingleSampleOutcome (-110) 0 else readSingleSampleOutcome 0 0
    let r := mmcBlkReadSingle flatBlockLayer readSingleSampleQueue ⟨4, 0⟩
      readSingleSampleRequest outcomes
    .complete 8 .ok ∈ r.log ∧ lastRead readSingleSampleQueue.card 8 r.log = some (outcomes.get 0) ∧
    ¬Honest readSingleSampleQueue r.log := by
  intro outcomes r
  have hfirst : readSingleBody false ⟨.ok, 0⟩ outcomes.head = some ⟨.ok, 1⟩ := by decide
  have hsecond : readSingleBody false ⟨.ok, 1⟩ outcomes.tail.head = some ⟨.ok, 0⟩ := by decide
  have hlog : r.log = roundLog flatBlockLayer readSingleSampleQueue
      (readSingleSampleRequest.advance 1) outcomes.tail.head .ok
      (roundLog flatBlockLayer readSingleSampleQueue readSingleSampleRequest outcomes.head .ok
        []) := by
    simp only [r, mmcBlkReadSingle]
    rw [readSingleLoop_next (by decide) hfirst, readSingleLoop_last (by decide) hsecond]
  rw [hlog]
  refine ⟨by simp [roundLog, readSingleSampleRequest], rfl, fun h => ?_⟩
  have hunread := h.suffix ((List.suffix_cons _ _).trans (List.suffix_cons _ _))
  have hclean := (honest_round_iff rfl (by decide) fun _ _ hmem =>
    absurd hmem List.not_mem_nil).mp hunread
  exact absurd (hclean.1 rfl).cmd (by decide)

end LinuxDriver
