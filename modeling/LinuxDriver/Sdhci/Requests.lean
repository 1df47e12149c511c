import LinuxDriver.Kernel
import LinuxDriver.Lts
import LinuxDriver.SlotTable

/-!
# The requests of an SDHCI host

A request has a command, and may have a command before it that sets the block count, data, and a
command after the data that stops the transfer. The host keeps the command on the command line, the
command that uses the data lines and the data that is moved, and up to two requests that are done
but not given back. Interrupts of the controller, the two software timers, the removal of the card
and the tasklet that gives requests back come in any order.

While a request with `cap_cmd_during_tfr` still moves its data, another command that does not use
the data lines may be issued. Else requests are issued one after another.

## Main definitions

* `Cmd`, `Mrq`, `CmdRef`, `HostConfig`, `Host`: commands, requests and the host.
* `sdhciSendCommand`, `sdhciFinishMrq`, `sdhciFinishData`, `sdhciFinishCommand`, `sdhciCmdIrq`,
  `sdhciDataIrq`, `sdhciRequestDone`: the driver.
* `Action`, `State`, `requestSystem`: the host with everything that acts on it.
-/

namespace LinuxDriver.Sdhci

/-! ### Requests -/

/-- The flags of `struct mmc_command` that the driver looks at: `MMC_RSP_136` and `MMC_RSP_BUSY`. -/
structure Cmd where
  rsp136 : Bool
  rspBusy : Bool
  deriving DecidableEq

/-- `struct mmc_request`. There is something before or after the command only if it has data, the
block count is set with a short response, and other commands are let in only while the data lines
are used. -/
structure Mrq where
  sbc : Option Cmd
  cmd : Cmd
  data : Bool
  stop : Option Cmd
  capCmdDuringTfr : Bool
  sbc_data : sbc.isSome → data
  stop_data : stop.isSome → data
  sbc_short : ∀ c ∈ sbc, c.rspBusy = false
  cap_line : capCmdDuringTfr → data ∨ cmd.rspBusy

/-- The member of `struct mmc_request` that a command is. -/
inductive Role
  | sbc
  | cmd
  | stop
  deriving DecidableEq

/-- A pointer to a command. -/
structure CmdRef where
  mrq : ℕ
  role : Role
  deriving DecidableEq

/-- `SDHCI_AUTO_CMD12`, `SDHCI_AUTO_CMD23`, `SDHCI_QUIRK_NO_BUSY_IRQ`,
`SDHCI_QUIRK_RESET_AFTER_REQUEST` and `SDHCI_DEVICE_DEAD`. -/
structure HostConfig where
  autoCmd12 : Bool
  autoCmd23 : Bool
  noBusyIrq : Bool
  resetAfterRequest : Bool
  deviceDead : Bool

/-- `struct sdhci_host`, with the errors that are left in the requests. `warned` says that a
`WARN_ON` about the pointers to what is on the lines or about `mrqs_done` was met, `commandDone` for
which requests `mmc_command_done` was called, and `ended` the calls of `mmc_request_done`. -/
structure Host where
  cmd : Option CmdRef
  dataCmd : Option CmdRef
  data : Option ℕ
  dataEarly : Bool
  pendingReset : Bool
  mrqsDone : Fin 2 → Option ℕ
  scheduled : Bool
  timer : Bool
  dataTimer : Bool
  cmdError : CmdRef → ℤ
  dataError : ℕ → ℤ
  commandDone : ℕ → Bool
  ended : List ℕ
  warned : Bool

section Driver

variable (reqs : ℕ → Mrq) (cfg : HostConfig)

/-- The command that a pointer leads to. -/
def cmdOf (c : CmdRef) : Cmd :=
  match c.role with
  | .sbc => (reqs c.mrq).sbc.getD (reqs c.mrq).cmd
  | .cmd => (reqs c.mrq).cmd
  | .stop => (reqs c.mrq).stop.getD (reqs c.mrq).cmd

/-- `cmd->data` -/
def hasData (c : CmdRef) : Bool := c.role = .cmd ∧ (reqs c.mrq).data

/-- `sdhci_data_line_cmd` -/
def sdhciDataLineCmd (c : CmdRef) : Bool := hasData reqs c || (cmdOf reqs c).rspBusy

/-- `sdhci_auto_cmd12` -/
def sdhciAutoCmd12 (mrq : ℕ) : Bool :=
  (reqs mrq).sbc.isNone && cfg.autoCmd12 && !(reqs mrq).capCmdDuringTfr

/-- `mrq->data->stop`, which `sdhci_request` takes away if the controller sends it. -/
def hasStop (mrq : ℕ) : Bool := (reqs mrq).stop.isSome && !sdhciAutoCmd12 reqs cfg mrq

/-! ### The driver -/

/-- `sdhci_needs_reset` -/
def sdhciNeedsReset (s : Host) (mrq : ℕ) : Bool :=
  !cfg.deviceDead &&
    (s.cmdError ⟨mrq, .cmd⟩ ≠ 0 ||
      ((reqs mrq).sbc.isSome && s.cmdError ⟨mrq, .sbc⟩ ≠ 0) ||
      ((reqs mrq).data && ((s.dataError mrq ≠ 0 && !hasStop reqs cfg mrq) ||
        (hasStop reqs cfg mrq && s.cmdError ⟨mrq, .stop⟩ ≠ 0))) ||
      cfg.resetAfterRequest)

/-- `__sdhci_finish_mrq` -/
def finishMrqSlot (s : Host) (mrq : ℕ) : Host :=
  if ∃ i, s.mrqsDone i = some mrq then { s with warned := true }
  else match (List.finRange 2).find? fun i => s.mrqsDone i = none with
    | some i => { s with mrqsDone := Function.update s.mrqsDone i (some mrq), scheduled := true }
    | none => { s with warned := true, scheduled := true }

/-- The pointers of the host to a request cleared. -/
def clearMrq (s : Host) (mrq : ℕ) : Host :=
  { s with
    cmd := s.cmd.filter fun c => c.mrq ≠ mrq
    dataCmd := s.dataCmd.filter fun c => c.mrq ≠ mrq
    data := s.data.filter fun m => m ≠ mrq }

/-- `sdhci_finish_mrq` -/
def sdhciFinishMrq (s : Host) (mrq : ℕ) : Host :=
  let cleared := clearMrq s mrq
  finishMrqSlot
    { cleared with pendingReset := cleared.pendingReset || sdhciNeedsReset reqs cfg s mrq } mrq

/-- The `error` of a command set. -/
def Host.setCmdError (s : Host) (c : CmdRef) (error : ℤ) : Host :=
  { s with cmdError := Function.update s.cmdError c error }

/-- The `error` of the data of a request set. -/
def Host.setDataError (s : Host) (mrq : ℕ) (error : ℤ) : Host :=
  { s with dataError := Function.update s.dataError mrq error }

/-- `sdhci_mod_timer` -/
def sdhciModTimer (s : Host) (mrq : ℕ) : Host :=
  if sdhciDataLineCmd reqs ⟨mrq, .cmd⟩ then { s with dataTimer := true }
  else { s with timer := true }

/-- `sdhci_del_timer` -/
def sdhciDelTimer (s : Host) (mrq : ℕ) : Host :=
  if sdhciDataLineCmd reqs ⟨mrq, .cmd⟩ then { s with dataTimer := false }
  else { s with timer := false }

/-- The part of `sdhci_prepare_data` that says which data is moved. -/
def sdhciPrepareData (s : Host) (c : CmdRef) : Host :=
  if hasData reqs c then
    { s with data := some c.mrq, dataEarly := false, warned := s.warned || s.data.isSome }
  else s

/-- A command put onto the lines, in `sdhci_send_command`. -/
def occupyLines (s : Host) (c : CmdRef) : Host :=
  if sdhciDataLineCmd reqs c then
    { s with cmd := some c, dataCmd := some c, warned := s.warned || s.dataCmd.isSome }
  else { s with cmd := some c }

/-- `sdhci_send_command`, with whether the inhibit bits are never released. -/
def sdhciSendCommand (s : Host) (c : CmdRef) (stuck : Bool) : Host :=
  let s := { s.setCmdError c 0 with warned := s.warned || s.cmd.isSome }
  if stuck then sdhciFinishMrq reqs cfg (s.setCmdError c (-eio)) c.mrq
  else
    let s := sdhciPrepareData reqs (occupyLines reqs s c) c
    if (cmdOf reqs c).rsp136 && (cmdOf reqs c).rspBusy then
      sdhciFinishMrq reqs cfg (s.setCmdError c (-einval)) c.mrq
    else sdhciModTimer reqs s c.mrq

/-- `sdhci_finish_data` -/
def sdhciFinishData (s : Host) (stuck : Bool) : Host :=
  match s.data with
  | none => s
  | some mrq =>
    let s := { s with data := none, dataCmd := none }
    if hasStop reqs cfg mrq && (s.dataError mrq ≠ 0 || (reqs mrq).sbc.isNone) then
      if (reqs mrq).capCmdDuringTfr then sdhciFinishMrq reqs cfg s mrq
      else sdhciSendCommand reqs cfg { s with cmd := none } ⟨mrq, .stop⟩ stuck
    else sdhciFinishMrq reqs cfg s mrq

/-- The call of `mmc_command_done` in `sdhci_finish_command`. -/
def mmcCommandDone (s : Host) (c : CmdRef) : Host :=
  if (reqs c.mrq).capCmdDuringTfr && c.role = .cmd then
    { s with commandDone := Function.update s.commandDone c.mrq true }
  else s

/-- `sdhci_finish_command` -/
def sdhciFinishCommand (s : Host) (stuck : Bool) : Host :=
  match s.cmd with
  | none => s
  | some c =>
    let s := mmcCommandDone reqs { s with cmd := none } c
    -- the command is complete before the busy state has ended
    if (cmdOf reqs c).rspBusy && !hasData reqs c && !cfg.noBusyIrq && s.dataCmd = some c then s
    else if c.role = .sbc then sdhciSendCommand reqs cfg s ⟨c.mrq, .cmd⟩ stuck
    else
      let s := if s.data.isSome && s.dataEarly then sdhciFinishData reqs cfg s stuck else s
      if hasData reqs c then s else sdhciFinishMrq reqs cfg s c.mrq

/-- The bits of `SDHCI_INT_CMD_MASK`. -/
structure CmdInt where
  timeout : Bool
  crc : Bool
  endBit : Bool
  index : Bool
  response : Bool
  deriving DecidableEq

/-- `sdhci_cmd_irq` -/
def sdhciCmdIrq (s : Host) (intmask : CmdInt) (stuck : Bool) : Host :=
  match s.cmd with
  | none => s
  | some c =>
    if intmask.timeout || intmask.crc || intmask.endBit || intmask.index then
      let s := s.setCmdError c (if intmask.timeout then -etimedout else -eilseq)
      -- the card may have received the command, and start to move data
      if hasData reqs c && intmask.crc && !intmask.timeout then { s with cmd := none }
      else sdhciFinishMrq reqs cfg s c.mrq
    else if intmask.response then sdhciFinishCommand reqs cfg s stuck
    else s

/-- The bits of `SDHCI_INT_DATA_MASK` that end or fail a transfer, where `crc` is meant without the
one of `MMC_BUS_TEST_R`. -/
structure DataInt where
  timeout : Bool
  endBit : Bool
  crc : Bool
  adma : Bool
  dataEnd : Bool
  deriving DecidableEq

/-- What `sdhci_data_irq` puts into `host->data->error`. -/
def dataIntError (intmask : DataInt) : Option ℤ :=
  if intmask.timeout then some (-etimedout)
  else if intmask.endBit then some (-eilseq)
  else if intmask.crc then some (-eilseq)
  else if intmask.adma then some (-eio)
  else none

/-- The error of the data set by an interrupt. -/
def noteDataError (s : Host) (mrq : ℕ) (intmask : DataInt) : Host :=
  match dataIntError intmask with
  | some error => s.setDataError mrq error
  | none => s

/-- `sdhci_data_irq` -/
def sdhciDataIrq (s : Host) (intmask : DataInt) (stuck : Bool) : Host :=
  match s.data with
  | none =>
    match s.dataCmd with
    | none => s
    | some c =>
      if (cmdOf reqs c).rspBusy then
        if intmask.timeout then
          sdhciFinishMrq reqs cfg ({ s with dataCmd := none }.setCmdError c (-etimedout)) c.mrq
        else if intmask.dataEnd then
          -- the busy state may end before the command is complete
          if s.cmd = some c then { s with dataCmd := none }
          else sdhciFinishMrq reqs cfg { s with dataCmd := none } c.mrq
        else s
      else s
  | some mrq =>
    let s := noteDataError s mrq intmask
    if s.dataError mrq ≠ 0 then sdhciFinishData reqs cfg s stuck
    else if intmask.dataEnd then
      -- the data may be there before the command is complete
      if s.cmd = s.dataCmd then { s with dataEarly := true }
      else sdhciFinishData reqs cfg s stuck
    else s

/-- `sdhci_error_out_mrqs` -/
def sdhciErrorOutMrqs (s : Host) (err : ℤ) : Host :=
  let s := match s.dataCmd with
    | some c => sdhciFinishMrq reqs cfg (s.setCmdError c err) c.mrq
    | none => s
  match s.cmd with
  | some c => sdhciFinishMrq reqs cfg (s.setCmdError c err) c.mrq
  | none => s

/-- What every finished request keeps is kept by finishing those on the lines. -/
theorem sdhciErrorOutMrqs_keeps {P : Host → Prop} {s : Host} (err : ℤ) (hs : P s)
    (hfinish : ∀ u, P u → ∀ c, u.cmd = some c ∨ u.dataCmd = some c →
      P (sdhciFinishMrq reqs cfg (u.setCmdError c err) c.mrq)) :
    P (sdhciErrorOutMrqs reqs cfg s err) := by
  have hcmd : ∀ u, P u → P (match u.cmd with
      | some c => sdhciFinishMrq reqs cfg (u.setCmdError c err) c.mrq
      | none => u) := by
    intro u hu
    split
    next c hc => exact hfinish u hu c (.inl hc)
    next => exact hu
  unfold sdhciErrorOutMrqs
  refine hcmd _ ?_
  split
  next c hc => exact hfinish s hs c (.inr hc)
  next => exact hs

/-- `sdhci_card_event`, with whether a card is there. -/
def sdhciCardEvent (s : Host) (present : Bool) : Host :=
  if (s.cmd.isSome || s.dataCmd.isSome) && !present then sdhciErrorOutMrqs reqs cfg s (-enomedium)
  else s

/-- `sdhci_timeout_timer`, after the timer has expired. -/
def sdhciTimeoutTimer (s : Host) : Host :=
  match s.cmd with
  | none => s
  | some c =>
    if sdhciDataLineCmd reqs c then s
    else sdhciFinishMrq reqs cfg (s.setCmdError c (-etimedout)) c.mrq

/-- `sdhci_timeout_data_timer`, after the timer has expired. -/
def sdhciTimeoutDataTimer (s : Host) (stuck : Bool) : Host :=
  match s.data with
  | some mrq => sdhciFinishData reqs cfg (s.setDataError mrq (-etimedout)) stuck
  | none =>
    match s.dataCmd with
    | some c => sdhciFinishMrq reqs cfg (s.setCmdError c (-etimedout)) c.mrq
    | none =>
      match s.cmd with
      | some c =>
        if sdhciDataLineCmd reqs c then
          sdhciFinishMrq reqs cfg (s.setCmdError c (-etimedout)) c.mrq
        else s
      | none => s

/-- `sdhci_request`, with whether a card is there. The errors of the request are cleared by
`mmc_mrq_prep` before. -/
def sdhciRequest (s : Host) (mrq : ℕ) (present stuck : Bool) : Host :=
  let s := { s with
    cmdError := fun c => if c.mrq = mrq then 0 else s.cmdError c
    dataError := Function.update s.dataError mrq 0
    commandDone := Function.update s.commandDone mrq false }
  if !present || cfg.deviceDead then
    sdhciFinishMrq reqs cfg (s.setCmdError ⟨mrq, .cmd⟩ (-enomedium)) mrq
  else if (reqs mrq).sbc.isSome && !cfg.autoCmd23 then
    sdhciSendCommand reqs cfg s ⟨mrq, .sbc⟩ stuck
  else sdhciSendCommand reqs cfg s ⟨mrq, .cmd⟩ stuck

/-- `sdhci_request_done`: one round of the loop of `sdhci_tasklet_finish`, which ends when it
returns `true`. -/
def sdhciRequestDone (s : Host) : Host :=
  match (List.finRange 2).find? fun i => (s.mrqsDone i).isSome with
  | none => { s with scheduled := false }
  | some i =>
    match s.mrqsDone i with
    | none => { s with scheduled := false }
    | some mrq =>
      let s := sdhciDelTimer reqs s mrq
      let reset := sdhciNeedsReset reqs cfg s mrq
      if reset && (s.cmd.isSome || s.dataCmd.isSome) then { s with scheduled := false }
      else
        { s with
          pendingReset := if reset then false else s.pendingReset
          mrqsDone := Function.update s.mrqsDone i none
          ended := s.ended ++ [mrq] }

end Driver

/-! ### The system -/

/-- What may happen to the host. Whoever sends a command also says whether the inhibit bits are
never released. -/
inductive Action
  | request (mrq : ℕ) (present stuck : Bool)
  | cmdIrq (intmask : CmdInt) (stuck : Bool)
  | dataIrq (intmask : DataInt) (stuck : Bool)
  | timer
  | dataTimer (stuck : Bool)
  | cardEvent (present : Bool)
  | requestDone
  deriving DecidableEq

/-- The host, and the requests issued so far. -/
structure State where
  host : Host
  issued : List ℕ

/-- The host after `sdhci_setup_host`. -/
def Host.init : Host where
  cmd := none
  dataCmd := none
  data := none
  dataEarly := false
  pendingReset := false
  mrqsDone := fun _ => none
  scheduled := false
  timer := false
  dataTimer := false
  cmdError := fun _ => 0
  dataError := fun _ => 0
  commandDone := fun _ => false
  ended := []
  warned := false

/-- The host with everything that acts on it. A timer expires only if it was armed, and the tasklet
may also run without need. -/
def requestSystem (reqs : ℕ → Mrq) (cfg : HostConfig) : Lts State Action where
  init := ⟨.init, []⟩
  next s
    | .request mrq present stuck =>
      some ⟨sdhciRequest reqs cfg s.host mrq present stuck, s.issued ++ [mrq]⟩
    | .cmdIrq intmask stuck => some { s with host := sdhciCmdIrq reqs cfg s.host intmask stuck }
    | .dataIrq intmask stuck => some { s with host := sdhciDataIrq reqs cfg s.host intmask stuck }
    | .timer =>
      if s.host.timer then
        some { s with host := sdhciTimeoutTimer reqs cfg { s.host with timer := false } }
      else none
    | .dataTimer stuck =>
      if s.host.dataTimer then
        some { s with host := sdhciTimeoutDataTimer reqs cfg { s.host with dataTimer := false } stuck }
      else none
    | .cardEvent present => some { s with host := sdhciCardEvent reqs cfg s.host present }
    | .requestDone => some { s with host := sdhciRequestDone reqs cfg s.host }

end LinuxDriver.Sdhci
