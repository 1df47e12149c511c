import LinuxDriver.Mmc.Erase
import LinuxDriver.Mmc.Partition

/-!
# Secure discard

`mmc_blk_issue_secdiscard_rq` wipes the sectors of a request with one secure erase, or with the two
steps of a secure trim, each of them after a switch of the register that iNAND cards need. A switch
that fails and an erase that returns `-EIO` lead to `out_retry`, where the card is reset and the
whole attempt made again. `mmc_blk_reset` refuses a second reset, so there are two attempts at
most.

At `out_retry` only the two labels above it have set `status`: when the reset is refused or fails,
the request ends with `BLK_STS_OK` although its last attempt failed.

## Main definitions

* `SecCommand`: a command of an attempt.
* `secdiscardAttempt`, `secdiscardLoop`, `mmcBlkIssueSecdiscardRq`.
* `secCommands`: the commands that an attempt has to issue.
* `runCommands`: an attempt as a run through such a list.
* `CarriedOut`: every command of the final attempt was issued and returned `0`.
* `FailsRetryably`: the first command that fails is one after which the attempt is made again.

## Main results

* `secdiscardAttempt_eq`: the code runs through the list of commands.
* `secdiscardLoop_attempts_le`: there are at most two attempts.
* `mmcBlkIssueSecdiscardRq_ok_iff`: when `BLK_STS_OK` means that the data was wiped.
-/

namespace LinuxDriver.Mmc

/-! ### One attempt -/

def inandCmd38ArgSecerase : ℕ := 0x80
def inandCmd38ArgSectrim1 : ℕ := 0x81
def inandCmd38ArgSectrim2 : ℕ := 0x88

/-- `MMC_BLK_SECDISCARD` -/
def mmcBlkSecdiscard : ℕ := 1 <<< 3

/-- A command of an attempt: `mmc_switch` of `INAND_CMD38_ARG_EXT_CSD` to a value, or `mmc_erase`
of the request with an argument. -/
inductive SecCommand
  | switch (value : ℕ)
  | erase (arg : ℕ)
  deriving DecidableEq

/-- The values of `blk_status_t` that end a request. -/
inductive DiscardStatus
  | ok
  | notsupp
  | ioerr
  deriving DecidableEq

/-- The label that an attempt jumps to: `out_retry` with the value of `err`, or `out` with the value
of `status`. -/
inductive AttemptExit
  | outRetry (err : ℤ)
  | out (status : DiscardStatus)
  deriving DecidableEq

/-- The commands that were issued, with their results. -/
abbrev AttemptLog := List (SecCommand × ℤ)

/-- The statements from `retry` to `out_retry`, where the command `c` returns `res c`. -/
def secdiscardAttempt (card : EraseCard) (arg : ℕ) (res : SecCommand → ℤ) :
    AttemptExit × AttemptLog :=
  let switch := SecCommand.switch
    (if arg = mmcSecureTrim1Arg then inandCmd38ArgSectrim1 else inandCmd38ArgSecerase)
  let log : AttemptLog := if card.inandCmd38 then [(switch, res switch)] else []
  if card.inandCmd38 ∧ res switch ≠ 0 then (.outRetry (res switch), log)
  else
    let erase := SecCommand.erase arg
    let log := log ++ [(erase, res erase)]
    if res erase = -eio then (.outRetry (res erase), log)
    else if res erase ≠ 0 then (.out .ioerr, log)
    else if arg = mmcSecureTrim1Arg then
      let switch := SecCommand.switch inandCmd38ArgSectrim2
      let log := if card.inandCmd38 then log ++ [(switch, res switch)] else log
      if card.inandCmd38 ∧ res switch ≠ 0 then (.outRetry (res switch), log)
      else
        let erase := SecCommand.erase mmcSecureTrim2Arg
        let log := log ++ [(erase, res erase)]
        if res erase = -eio then (.outRetry (res erase), log)
        else if res erase ≠ 0 then (.out .ioerr, log)
        else (.outRetry (res erase), log)
    else (.outRetry (res erase), log)

/-! ### An attempt as a list of commands -/

/-- The commands that an attempt has to issue. -/
def secCommands (card : EraseCard) (arg : ℕ) : List SecCommand :=
  if arg = mmcSecureTrim1Arg then
    if card.inandCmd38 then
      [.switch inandCmd38ArgSectrim1, .erase arg, .switch inandCmd38ArgSectrim2,
        .erase mmcSecureTrim2Arg]
    else [.erase arg, .erase mmcSecureTrim2Arg]
  else if card.inandCmd38 then [.switch inandCmd38ArgSecerase, .erase arg]
  else [.erase arg]

/-- A command that failed with this result is tried again after a reset. -/
def SecCommand.Retryable : SecCommand → ℤ → Prop
  | .switch _, _ => True
  | .erase _, err => err = -eio

instance (err : ℤ) : (c : SecCommand) → Decidable (c.Retryable err)
  | .switch _ => isTrue trivial
  | .erase _ => inferInstanceAs (Decidable (err = -eio))

/-- The commands are issued in their order, up to the first that fails. -/
def runCommands (res : SecCommand → ℤ) : List SecCommand → AttemptExit × AttemptLog
  | [] => (.outRetry 0, [])
  | c :: cs =>
    if res c = 0 then ((runCommands res cs).1, (c, 0) :: (runCommands res cs).2)
    else (if c.Retryable (res c) then .outRetry (res c) else .out .ioerr, [(c, res c)])

/-- The first command that fails is tried again after a reset. -/
def FailsRetryably (res : SecCommand → ℤ) (cmds : List SecCommand) : Prop :=
  ∃ c, cmds.find? (fun c => res c ≠ 0) = some c ∧ c.Retryable (res c)

/-- The log of an attempt all of whose commands returned `0`. -/
def cleanLog (cmds : List SecCommand) : AttemptLog := cmds.map fun c => (c, 0)

theorem runCommands_switch (res : SecCommand → ℤ) (value : ℕ) (cs : List SecCommand) :
    runCommands res (.switch value :: cs) =
      if res (.switch value) ≠ 0 then
        (.outRetry (res (.switch value)), [(.switch value, res (.switch value))])
      else ((runCommands res cs).1, (.switch value, 0) :: (runCommands res cs).2) := by
  by_cases h : res (.switch value) = 0 <;> simp [runCommands, SecCommand.Retryable, h]

theorem runCommands_erase (res : SecCommand → ℤ) (arg : ℕ) (cs : List SecCommand) :
    runCommands res (.erase arg :: cs) =
      if res (.erase arg) = -eio then
        (.outRetry (res (.erase arg)), [(.erase arg, res (.erase arg))])
      else if res (.erase arg) ≠ 0 then (.out .ioerr, [(.erase arg, res (.erase arg))])
      else ((runCommands res cs).1, (.erase arg, 0) :: (runCommands res cs).2) := by
  by_cases h : res (.erase arg) = 0
  · simp [runCommands, h, eio]
  · have heio : eio ≠ 0 := by decide
    by_cases hretry : res (.erase arg) = -eio <;>
      simp [runCommands, SecCommand.Retryable, h, hretry, heio]

/-- **The code runs through the list of commands.** -/
theorem secdiscardAttempt_eq (card : EraseCard) (arg : ℕ) (res : SecCommand → ℤ) :
    secdiscardAttempt card arg res = runCommands res (secCommands card arg) := by
  by_cases htrim : arg = mmcSecureTrim1Arg <;> by_cases hinand : card.inandCmd38 = true <;>
    simp only [secdiscardAttempt, secCommands, runCommands_switch, runCommands_erase, htrim,
      hinand, if_true, if_false, true_and, false_and, Bool.false_eq_true, List.nil_append]
  all_goals
    split_ifs <;> simp_all [runCommands]

theorem failsRetryably_cons_of_eq_zero {res : SecCommand → ℤ} {c : SecCommand}
    {cs : List SecCommand} (h : res c = 0) :
    FailsRetryably res (c :: cs) ↔ FailsRetryably res cs := by
  simp [FailsRetryably, h]

theorem failsRetryably_cons_of_ne_zero {res : SecCommand → ℤ} {c : SecCommand}
    {cs : List SecCommand} (h : res c ≠ 0) :
    FailsRetryably res (c :: cs) ↔ c.Retryable (res c) := by
  simp [FailsRetryably, h]

/-- How a run through a list of commands ends: with `err = 0` at `out_retry`, all commands having
returned `0`; with an error at `out_retry`; or with `BLK_STS_IOERR` at `out`. -/
theorem runCommands_cases (res : SecCommand → ℤ) (cmds : List SecCommand) :
    (¬FailsRetryably res cmds ∧ runCommands res cmds = (.outRetry 0, cleanLog cmds)) ∨
    (FailsRetryably res cmds ∧ ∃ err log, err ≠ 0 ∧ log ≠ cleanLog cmds ∧
      runCommands res cmds = (.outRetry err, log)) ∨
    (¬FailsRetryably res cmds ∧ ∃ log, log ≠ cleanLog cmds ∧
      runCommands res cmds = (.out .ioerr, log)) := by
  induction cmds with
  | nil => exact .inl ⟨by simp [FailsRetryably], rfl⟩
  | cons c cs ih =>
    by_cases h : res c = 0
    · have hlog : ∀ log, log ≠ cleanLog cs → (c, 0) :: log ≠ cleanLog (c :: cs) :=
        fun log hne heq => hne (List.cons.inj heq).2
      rw [failsRetryably_cons_of_eq_zero h, runCommands, if_pos h]
      rcases ih with ⟨hfails, hrun⟩ | ⟨hfails, err, log, herr, hne, hrun⟩ | ⟨hfails, log, hne, hrun⟩
      · exact .inl ⟨hfails, by rw [hrun]; rfl⟩
      · exact .inr (.inl ⟨hfails, err, _, herr, hlog log hne, by rw [hrun]⟩)
      · exact .inr (.inr ⟨hfails, _, hlog log hne, by rw [hrun]⟩)
    · have hlog : [(c, res c)] ≠ cleanLog (c :: cs) := by
        intro heq
        exact h (Prod.mk.inj (List.cons.inj heq).1).2
      rw [failsRetryably_cons_of_ne_zero h, runCommands, if_neg h]
      by_cases hretry : c.Retryable (res c)
      · exact .inr (.inl ⟨hretry, res c, _, h, hlog, by rw [if_pos hretry]⟩)
      · exact .inr (.inr ⟨hretry, _, hlog, by rw [if_neg hretry]⟩)

/-! ### The retry loop -/

/-- What happens in an attempt, and in the reset after it. -/
structure AttemptOutcome where
  res : SecCommand → ℤ
  reset : ResetResults

/-- What a call leaves: the status that the request ends with, the log of each attempt, the bits of
`md->reset_done`, and the bookkeeping of the partitions. -/
structure SecdiscardResult where
  status : DiscardStatus
  attempts : List AttemptLog
  resetDone : ℕ
  part : PartState

/-- A reset that succeeds was the first one since the bit was cleared, and sets it. -/
theorem mmcBlkReset_eq_zero {mmcCard : Bool} {s : PartState} {resetDone type : ℕ}
    {target : PartType} {r : ResetResults}
    (h : (mmcBlkReset mmcCard s resetDone type target r).1 = 0) :
    resetDone &&& type = 0 ∧
      (mmcBlkReset mmcCard s resetDone type target r).2.1 = resetDone ||| type := by
  by_cases hdone : resetDone &&& type ≠ 0
  · rw [mmcBlkReset, if_pos hdone] at h
    have heexist : -eexist ≠ 0 := by decide
    exact absurd h heexist
  · refine ⟨not_not.mp hdone, ?_⟩
    rw [mmcBlkReset, if_neg hdone]
    dsimp only
    split <;> rfl

theorem or_and_mmcBlkSecdiscard_ne_zero (resetDone : ℕ) :
    (resetDone ||| mmcBlkSecdiscard) &&& mmcBlkSecdiscard ≠ 0 := by
  rw [Nat.and_or_distrib_right, Nat.and_self]
  intro h
  exact absurd (Nat.or_eq_zero_iff.mp h).2 (by decide)

/-- `mmc_blk_issue_secdiscard_rq` from `retry` on. It ends because a reset that succeeds sets a bit
that makes the next one fail. -/
def secdiscardLoop (mmcCard : Bool) (card : EraseCard) (target : PartType) (arg : ℕ)
    (s : PartState) (resetDone : ℕ) (outcomes : Stream' AttemptOutcome) : SecdiscardResult :=
  let attempt := secdiscardAttempt card arg outcomes.head.res
  match attempt.1 with
  | .out status => ⟨status, [attempt.2], resetDone, s⟩
  | .outRetry err =>
    let reset := mmcBlkReset mmcCard s resetDone mmcBlkSecdiscard target outcomes.head.reset
    if _h : err ≠ 0 ∧ reset.1 = 0 then
      let rest := secdiscardLoop mmcCard card target arg reset.2.2 reset.2.1 outcomes.tail
      { rest with attempts := attempt.2 :: rest.attempts }
    else if err ≠ 0 then ⟨.ok, [attempt.2], reset.2.1, reset.2.2⟩
    else ⟨.ok, [attempt.2], Nat.ldiff resetDone mmcBlkSecdiscard, s⟩
termination_by if resetDone &&& mmcBlkSecdiscard = 0 then 1 else 0
decreasing_by
  obtain ⟨hclear, hset⟩ := mmcBlkReset_eq_zero _h.2
  rw [if_pos hclear, hset, if_neg (or_and_mmcBlkSecdiscard_ne_zero resetDone)]
  exact Nat.one_pos

/-- The argument that `mmc_blk_issue_secdiscard_rq` chooses for its first erase. -/
def secdiscardArg (card : EraseCard) (pos sectors : ℕ) : ℕ :=
  if mmcCanTrim card && !mmcEraseGroupAligned card (pos % 2 ^ 32) sectors then mmcSecureTrim1Arg
  else mmcSecureEraseArg

/-- `mmc_blk_issue_secdiscard_rq` for a request of `sectors` sectors from `pos` on. -/
def mmcBlkIssueSecdiscardRq (mmcCard : Bool) (card : EraseCard) (target : PartType)
    (pos sectors : ℕ) (s : PartState) (resetDone : ℕ) (outcomes : Stream' AttemptOutcome) :
    SecdiscardResult :=
  if mmcCanSecureEraseTrim card = false then ⟨.notsupp, [], resetDone, s⟩
  else secdiscardLoop mmcCard card target (secdiscardArg card pos sectors) s resetDone outcomes

/-! ### What `BLK_STS_OK` means -/

/-- In the final attempt, every command that had to be issued was issued and returned `0`. -/
def CarriedOut (cmds : List SecCommand) (attempts : List AttemptLog) : Prop :=
  attempts.getLast? = some (cleanLog cmds)

instance (cmds : List SecCommand) (attempts : List AttemptLog) :
    Decidable (CarriedOut cmds attempts) :=
  inferInstanceAs (Decidable (_ = _))

/-- The request ends with `BLK_STS_OK` if and only if it was carried out. -/
def SecdiscardResult.Honest (r : SecdiscardResult) (cmds : List SecCommand) : Prop :=
  r.status = .ok ↔ CarriedOut cmds r.attempts

section Loop

variable {mmcCard : Bool} {card : EraseCard} {target : PartType} {arg : ℕ} {s : PartState}
  {resetDone : ℕ} {outcomes : Stream' AttemptOutcome}

/-- The reset after the first attempt. -/
def firstReset (mmcCard : Bool) (target : PartType) (s : PartState) (resetDone : ℕ)
    (outcomes : Stream' AttemptOutcome) : ℤ × ℕ × PartState :=
  mmcBlkReset mmcCard s resetDone mmcBlkSecdiscard target outcomes.head.reset

theorem secdiscardLoop_retry {err : ℤ} {log : AttemptLog} (herr : err ≠ 0)
    (hrun : runCommands outcomes.head.res (secCommands card arg) = (.outRetry err, log))
    (hreset : (firstReset mmcCard target s resetDone outcomes).1 = 0) :
    let reset := firstReset mmcCard target s resetDone outcomes
    let rest := secdiscardLoop mmcCard card target arg reset.2.2 reset.2.1 outcomes.tail
    secdiscardLoop mmcCard card target arg s resetDone outcomes =
      { rest with attempts := log :: rest.attempts } := by
  rw [secdiscardLoop, secdiscardAttempt_eq, hrun]
  exact dif_pos ⟨herr, hreset⟩

/-- Without another attempt, the status at `out` is still the `BLK_STS_OK` that it began with,
whether or not there was an error. -/
theorem secdiscardLoop_ends {err : ℤ} {log : AttemptLog}
    (hrun : runCommands outcomes.head.res (secCommands card arg) = (.outRetry err, log))
    (hend : ¬(err ≠ 0 ∧ (firstReset mmcCard target s resetDone outcomes).1 = 0)) :
    (secdiscardLoop mmcCard card target arg s resetDone outcomes).status = .ok ∧
      (secdiscardLoop mmcCard card target arg s resetDone outcomes).attempts = [log] := by
  rw [firstReset] at hend
  rw [secdiscardLoop, secdiscardAttempt_eq, hrun]
  dsimp only
  rw [dif_neg hend]
  split <;> exact ⟨rfl, rfl⟩

theorem secdiscardLoop_giveUp {err : ℤ} {log : AttemptLog}
    (hrun : runCommands outcomes.head.res (secCommands card arg) = (.outRetry err, log))
    (hreset : (firstReset mmcCard target s resetDone outcomes).1 ≠ 0) :
    (secdiscardLoop mmcCard card target arg s resetDone outcomes).status = .ok ∧
      (secdiscardLoop mmcCard card target arg s resetDone outcomes).attempts = [log] :=
  secdiscardLoop_ends hrun fun h => hreset h.2

variable (mmcCard target s resetDone) in
theorem secdiscardLoop_clean {log : AttemptLog}
    (hrun : runCommands outcomes.head.res (secCommands card arg) = (.outRetry 0, log)) :
    (secdiscardLoop mmcCard card target arg s resetDone outcomes).status = .ok ∧
      (secdiscardLoop mmcCard card target arg s resetDone outcomes).attempts = [log] :=
  secdiscardLoop_ends hrun fun h => h.1 rfl

variable (mmcCard target s resetDone) in
theorem secdiscardLoop_out {status : DiscardStatus} {log : AttemptLog}
    (hrun : runCommands outcomes.head.res (secCommands card arg) = (.out status, log)) :
    (secdiscardLoop mmcCard card target arg s resetDone outcomes).status = status ∧
      (secdiscardLoop mmcCard card target arg s resetDone outcomes).attempts = [log] := by
  rw [secdiscardLoop, secdiscardAttempt_eq, hrun]
  exact ⟨rfl, rfl⟩

/-- Every call of the loop makes an attempt. -/
theorem secdiscardLoop_attempts_ne_nil :
    (secdiscardLoop mmcCard card target arg s resetDone outcomes).attempts ≠ [] := by
  rcases runCommands_cases outcomes.head.res (secCommands card arg) with
    ⟨-, hrun⟩ | ⟨-, err, log, herr, -, hrun⟩ | ⟨-, log, -, hrun⟩
  · rw [(secdiscardLoop_clean _ _ _ _ hrun).2]
    exact List.cons_ne_nil _ _
  · by_cases hreset : (firstReset mmcCard target s resetDone outcomes).1 = 0
    · rw [secdiscardLoop_retry herr hrun hreset]
      exact List.cons_ne_nil _ _
    · rw [(secdiscardLoop_giveUp hrun hreset).2]
      exact List.cons_ne_nil _ _
  · rw [(secdiscardLoop_out _ _ _ _ hrun).2]
    exact List.cons_ne_nil _ _

/-- One attempt: the status is right, unless the attempt is made again and the status after that is
wrong, or it should have been made again and the reset failed. -/
theorem secdiscardLoop_honest_round :
    (secdiscardLoop mmcCard card target arg s resetDone outcomes).Honest
        (secCommands card arg) ↔
      (FailsRetryably outcomes.head.res (secCommands card arg) →
        (firstReset mmcCard target s resetDone outcomes).1 = 0 ∧
        (secdiscardLoop mmcCard card target arg
          (firstReset mmcCard target s resetDone outcomes).2.2
          (firstReset mmcCard target s resetDone outcomes).2.1 outcomes.tail).Honest
            (secCommands card arg)) := by
  have hlast : ∀ log, CarriedOut (secCommands card arg) [log] ↔
      log = cleanLog (secCommands card arg) := fun log => by simp [CarriedOut]
  rcases runCommands_cases outcomes.head.res (secCommands card arg) with
    ⟨hfails, hrun⟩ | ⟨hfails, err, log, herr, hne, hrun⟩ | ⟨hfails, log, hne, hrun⟩
  · obtain ⟨hstatus, hattempts⟩ := secdiscardLoop_clean mmcCard target s resetDone hrun
    refine iff_of_true ?_ fun h => absurd h hfails
    rw [SecdiscardResult.Honest, hstatus, hattempts, hlast]
    exact iff_of_true rfl rfl
  · by_cases hreset : (firstReset mmcCard target s resetDone outcomes).1 = 0
    · rw [secdiscardLoop_retry herr hrun hreset, imp_iff_right hfails, and_iff_right hreset,
        SecdiscardResult.Honest, SecdiscardResult.Honest, CarriedOut, CarriedOut]
      dsimp only
      rw [List.getLast?_cons_of_ne_nil secdiscardLoop_attempts_ne_nil]
    · obtain ⟨hstatus, hattempts⟩ := secdiscardLoop_giveUp hrun hreset
      refine iff_of_false ?_ fun h => hreset (h hfails).1
      rw [SecdiscardResult.Honest, hstatus, hattempts, hlast]
      exact fun h => hne (h.mp rfl)
  · obtain ⟨hstatus, hattempts⟩ := secdiscardLoop_out mmcCard target s resetDone hrun
    refine iff_of_true ?_ fun h => absurd h hfails
    rw [SecdiscardResult.Honest, hstatus, hattempts, hlast]
    exact iff_of_false (by decide) hne

/-- A second reset is refused. -/
theorem firstReset_of_done (hdone : resetDone &&& mmcBlkSecdiscard ≠ 0) :
    (firstReset mmcCard target s resetDone outcomes).1 ≠ 0 := fun h =>
  hdone (mmcBlkReset_eq_zero h).1

theorem firstReset_sets_done (h : (firstReset mmcCard target s resetDone outcomes).1 = 0) :
    (firstReset mmcCard target s resetDone outcomes).2.1 &&& mmcBlkSecdiscard ≠ 0 := by
  have hset : (firstReset mmcCard target s resetDone outcomes).2.1 =
      resetDone ||| mmcBlkSecdiscard := (mmcBlkReset_eq_zero h).2
  rw [hset]
  exact or_and_mmcBlkSecdiscard_ne_zero resetDone

/-- The status is right exactly when an attempt that fails retryably is followed by a reset that
succeeds and by an attempt that does not. -/
theorem secdiscardLoop_honest_iff :
    (secdiscardLoop mmcCard card target arg s resetDone outcomes).Honest
        (secCommands card arg) ↔
      (FailsRetryably outcomes.head.res (secCommands card arg) →
        (firstReset mmcCard target s resetDone outcomes).1 = 0 ∧
        ¬FailsRetryably outcomes.tail.head.res (secCommands card arg)) := by
  rw [secdiscardLoop_honest_round]
  refine imp_congr_right fun _ => and_congr_right fun hreset => ?_
  rw [secdiscardLoop_honest_round]
  exact imp_congr_right fun _ => iff_false_intro fun h =>
    firstReset_of_done (firstReset_sets_done hreset) h.1

variable (mmcCard card target arg s resetDone outcomes) in
/-- An attempt that is not made again is the only one. -/
theorem secdiscardLoop_attempts_cases :
    (secdiscardLoop mmcCard card target arg s resetDone outcomes).attempts.length = 1 ∨
    ((firstReset mmcCard target s resetDone outcomes).1 = 0 ∧
      (secdiscardLoop mmcCard card target arg s resetDone outcomes).attempts.length =
        (secdiscardLoop mmcCard card target arg
          (firstReset mmcCard target s resetDone outcomes).2.2
          (firstReset mmcCard target s resetDone outcomes).2.1 outcomes.tail).attempts.length +
            1) := by
  rcases runCommands_cases outcomes.head.res (secCommands card arg) with
    ⟨-, hrun⟩ | ⟨-, err, log, herr, -, hrun⟩ | ⟨-, log, -, hrun⟩
  · exact .inl (by rw [(secdiscardLoop_clean _ _ _ _ hrun).2]; rfl)
  · by_cases hreset : (firstReset mmcCard target s resetDone outcomes).1 = 0
    · exact .inr ⟨hreset, by rw [secdiscardLoop_retry herr hrun hreset]; rfl⟩
    · exact .inl (by rw [(secdiscardLoop_giveUp hrun hreset).2]; rfl)
  · exact .inl (by rw [(secdiscardLoop_out _ _ _ _ hrun).2]; rfl)

/-- There are at most two attempts. -/
theorem secdiscardLoop_attempts_le :
    (secdiscardLoop mmcCard card target arg s resetDone outcomes).attempts.length ≤ 2 := by
  rcases secdiscardLoop_attempts_cases mmcCard card target arg s resetDone outcomes with
    hone | ⟨hreset, hmore⟩
  · omega
  · rcases secdiscardLoop_attempts_cases mmcCard card target arg
      (firstReset mmcCard target s resetDone outcomes).2.2
      (firstReset mmcCard target s resetDone outcomes).2.1 outcomes.tail with
      hone | ⟨hagain, -⟩
    · omega
    · exact absurd hagain (firstReset_of_done (firstReset_sets_done hreset))

end Loop

/-- **Secure discard.** A call makes at most two attempts, and it ends the request with `BLK_STS_OK`
if and only if its final attempt was carried out, exactly when, on a card that can erase securely,
a first attempt that fails at a switch or with `-EIO` is followed by a reset that succeeds and by a
second attempt that does not fail so again. -/
theorem mmcBlkIssueSecdiscardRq_ok_iff (mmcCard : Bool) (card : EraseCard) (target : PartType)
    (pos sectors : ℕ) (s : PartState) (resetDone : ℕ) (outcomes : Stream' AttemptOutcome) :
    ((mmcBlkIssueSecdiscardRq mmcCard card target pos sectors s resetDone outcomes).attempts.length
        ≤ 2 ∧
      (mmcBlkIssueSecdiscardRq mmcCard card target pos sectors s resetDone outcomes).Honest
        (secCommands card (secdiscardArg card pos sectors))) ↔
      (mmcCanSecureEraseTrim card = true →
        FailsRetryably outcomes.head.res (secCommands card (secdiscardArg card pos sectors)) →
        (mmcBlkReset mmcCard s resetDone mmcBlkSecdiscard target outcomes.head.reset).1 = 0 ∧
        ¬FailsRetryably outcomes.tail.head.res
          (secCommands card (secdiscardArg card pos sectors))) := by
  by_cases hcan : mmcCanSecureEraseTrim card = true
  · have hcall : mmcBlkIssueSecdiscardRq mmcCard card target pos sectors s resetDone outcomes =
        secdiscardLoop mmcCard card target (secdiscardArg card pos sectors) s resetDone outcomes :=
      if_neg (by simp [hcan])
    rw [hcall, and_iff_right secdiscardLoop_attempts_le, secdiscardLoop_honest_iff,
      forall_prop_of_true hcan]
    rfl
  · have hcall : mmcBlkIssueSecdiscardRq mmcCard card target pos sectors s resetDone outcomes =
        ⟨.notsupp, [], resetDone, s⟩ := if_pos (by simpa using hcan)
    rw [hcall]
    refine iff_of_true ⟨Nat.zero_le 2, ?_⟩ fun h => absurd h hcan
    have hstatus : DiscardStatus.notsupp ≠ .ok := by decide
    exact iff_of_false hstatus (by simp [CarriedOut])

/-- A secure erase that returns `-EIO`, and a reset in which the card is initialised again. -/
def secdiscardSampleOutcome : AttemptOutcome where
  res _ := -eio
  reset := ⟨true, true, 0, false, false, ⟨0, 0, 0⟩⟩

/-- **A failed wipe reported as successful.** The secure erase of the sectors `0` to `3` returns
`-EIO`, before the reset of the card and after it. The second reset is refused, and the request ends
with `BLK_STS_OK`. -/
theorem mmcBlkIssueSecdiscardRq_failed_ok :
    let r := mmcBlkIssueSecdiscardRq true eraseSampleCard ⟨0, by decide⟩ 0 4
      ⟨0, 0, 0, false, false, false⟩ 0 fun _ => secdiscardSampleOutcome
    r.status = .ok ∧
      r.attempts = [[(.erase mmcSecureEraseArg, -eio)], [(.erase mmcSecureEraseArg, -eio)]] ∧
      ¬r.Honest (secCommands eraseSampleCard (secdiscardArg eraseSampleCard 0 4)) := by
  intro r
  have hrun : runCommands (fun _ => -eio)
      (secCommands eraseSampleCard (secdiscardArg eraseSampleCard 0 4)) =
      (.outRetry (-eio), [(.erase mmcSecureEraseArg, -eio)]) := by decide
  let reset := firstReset true ⟨0, by decide⟩ ⟨0, 0, 0, false, false, false⟩ 0
    fun _ => secdiscardSampleOutcome
  let rest := secdiscardLoop true eraseSampleCard ⟨0, by decide⟩
    (secdiscardArg eraseSampleCard 0 4) reset.2.2 reset.2.1 fun _ => secdiscardSampleOutcome
  have hretry : r = { rest with attempts := [(.erase mmcSecureEraseArg, -eio)] :: rest.attempts } :=
    secdiscardLoop_retry (by decide) hrun (by decide)
  have hgiveUp : rest.status = .ok ∧ rest.attempts = [[(.erase mmcSecureEraseArg, -eio)]] :=
    secdiscardLoop_giveUp hrun (by decide)
  have hattempts : r.attempts =
      [[(.erase mmcSecureEraseArg, -eio)], [(.erase mmcSecureEraseArg, -eio)]] := by
    rw [hretry, ← hgiveUp.2]
  have hstatus : r.status = .ok := by rw [hretry, ← hgiveUp.1]
  refine ⟨hstatus, hattempts, fun h => ?_⟩
  have hlast := h.mp hstatus
  rw [hattempts] at hlast
  exact absurd hlast (by decide)

end LinuxDriver.Mmc
