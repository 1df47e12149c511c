import LinuxDriver.Kernel
import LinuxDriver.Lts

/-!
# The state machine of the DesignWare MMC host

The tasklet of the host takes a request through its commands, its data and the command that stops
it. It looks at events that interrupts and timers raise: a command is complete, the data is moved,
the transfer is complete, the data failed. It holds the lock of the host while it runs and keeps its
state in a variable of its own, which it writes back at the end. Interrupts and timers do not take
that lock, so they come at any time, also while the tasklet runs.

## Main definitions

* `Mrq`, `Host`, `Completion`: requests, the host, and what is said when a request is given back.
* `dwMciQueueRequest`, `dwMciRequestEnd`, `dwMciCommandComplete`, `dwMciDataComplete`: the driver.
* `taskletStep`: one test of the events by `dw_mci_tasklet_func`.
* `Action`, `State`, `taskletSystem`: the host with everything that acts on it.
-/

namespace LinuxDriver.DwMmc.Tasklet

/-! ### Requests -/

/-- The commands that the host may send for a request; `stop` stands for `mrq->stop` where an error
is reported, and for `host->stop_abort` where a command is sent. -/
inductive Role
  | sbc
  | cmd
  | stop
  deriving DecidableEq

/-- `struct mmc_data`: its direction, `blocks * blksz`, and whether the processor moves it, since
`dw_mci_submit_data_dma` fails. -/
structure Data where
  dir : DataDir
  size : ℕ
  pio : Bool
  deriving DecidableEq

/-- `struct mmc_request`, with what the driver reads off the opcode and the flags of its commands:
whether the command is `SD_SWITCH_VOLTAGE`, whether it is `MMC_SEND_TUNING_BLOCK`, whether
`dw_mci_prep_stop_abort` knows how to stop it, and `MMC_RSP_PRESENT` and `MMC_RSP_CRC`. -/
structure Mrq where
  sbc : Bool
  data : Option Data
  stop : Bool
  switchVoltage : Bool
  tuning : Bool
  abortable : Bool
  rspPresent : Role → Bool
  rspCrc : Role → Bool

/-- `enum dw_mci_state` -/
inductive DwMciState
  | idle
  | sendingCmd
  | sendingData
  | dataBusy
  | sendingStop
  | dataError
  | sendingCmd11
  | waitingCmd11Done
  deriving DecidableEq

/-! ### Interrupt flags -/

def sdmmcIntRespErr : BitVec 32 := 1 <<< 1
def sdmmcIntRcrc : BitVec 32 := 1 <<< 6
def sdmmcIntDcrc : BitVec 32 := 1 <<< 7
def sdmmcIntRto : BitVec 32 := 1 <<< 8
def sdmmcIntDrto : BitVec 32 := 1 <<< 9
def sdmmcIntHto : BitVec 32 := 1 <<< 10
def sdmmcIntHle : BitVec 32 := 1 <<< 12
def sdmmcIntSbe : BitVec 32 := 1 <<< 13
def sdmmcIntEbe : BitVec 32 := 1 <<< 15

/-- `DW_MCI_DATA_ERROR_FLAGS` -/
def dataErrorFlags : BitVec 32 :=
  sdmmcIntDrto ||| sdmmcIntDcrc ||| sdmmcIntHto ||| sdmmcIntSbe ||| sdmmcIntEbe ||| sdmmcIntHle

/-- `DW_MCI_CMD_ERROR_FLAGS` -/
def cmdErrorFlags : BitVec 32 :=
  sdmmcIntRto ||| sdmmcIntRcrc ||| sdmmcIntRespErr ||| sdmmcIntHle

/-! ### The host -/

/-- `host->pending_events` -/
structure Pending where
  cmdComplete : Bool
  xferComplete : Bool
  dataComplete : Bool
  dataError : Bool
  deriving DecidableEq

/-- `host->completed_events` -/
structure Completed where
  cmd : Bool
  xfer : Bool
  data : Bool
  deriving DecidableEq

/-- What a request says when `mmc_request_done` is called, with `completed_events`. -/
structure Completion where
  mrq : ℕ
  cmdError : Role → ℤ
  dataError : ℤ
  bytesXfered : ℕ
  completed : Completed

/-- Where the tasklet is: not running; before the first test in its `state`; in
`STATE_SENDING_DATA` before the test for the end of the transfer, or before the second one for a
data error; or in `STATE_DATA_BUSY` before the reset after an error of the data. -/
inductive Pc
  | off
  | body (state : DwMciState)
  | xfer
  | checked
  | reset
  deriving DecidableEq

/-- `struct dw_mci` and its slot, with what is left in the requests. The queue holds the slot or
nothing, `data` says whether `host->data` is there, and `sg` whether `host->sg` is; `warned` says
that a `WARN_ON` was met, and `fault` that the tasklet followed a null pointer. -/
structure Host where
  state : DwMciState
  pc : Pc
  mrq : Option ℕ
  slotMrq : Option ℕ
  queued : Bool
  cmd : Option Role
  data : Bool
  sg : Bool
  stopCmdr : Bool
  pending : Pending
  completed : Completed
  cmdStatus : BitVec 32
  dataStatus : BitVec 32
  dirStatus : Option DataDir
  ctoTimer : Bool
  dtoTimer : Bool
  cmd11Timer : Bool
  cmdError : ℕ → Role → ℤ
  dataError : ℕ → ℤ
  bytesXfered : ℕ → ℕ
  ended : List Completion
  warned : Bool
  fault : Bool

section Driver

variable (reqs : ℕ → Mrq)

/-- `cmd->data` -/
def cmdData (mrq : ℕ) (c : Role) : Option Data := if c = .cmd then (reqs mrq).data else none

/-- The error of a command set. -/
def Host.setCmdError (h : Host) (mrq : ℕ) (c : Role) (error : ℤ) : Host :=
  { h with cmdError := Function.update h.cmdError mrq (Function.update (h.cmdError mrq) c error) }

/-- The error of the data of a request set. -/
def Host.setDataError (h : Host) (mrq : ℕ) (error : ℤ) : Host :=
  { h with dataError := Function.update h.dataError mrq error }

/-- `dw_mci_set_cto` -/
def dwMciSetCto (h : Host) : Host :=
  if h.pending.cmdComplete then h else { h with ctoTimer := true }

/-- `dw_mci_set_drto` -/
def dwMciSetDrto (h : Host) : Host :=
  if h.pending.dataComplete then h else { h with dtoTimer := true }

/-- `dw_mci_start_command`, with `SDMMC_CMD_RESP_EXP` of its flags. -/
def dwMciStartCommand (h : Host) (c : Role) (respExp : Bool) : Host :=
  if respExp then dwMciSetCto { h with cmd := some c } else { h with cmd := some c }

/-- `send_stop_abort` -/
def sendStopAbort (h : Host) : Host := dwMciStartCommand h .stop h.stopCmdr

/-- `dw_mci_stop_dma` -/
def dwMciStopDma (h : Host) : Host := { h with pending := { h.pending with xferComplete := true } }

/-- `dw_mci_prepare_command` -/
def dwMciPrepareCommand (h : Host) (mrq : ℕ) (c : Role) : Host :=
  let h := h.setCmdError mrq c (-einprogress)
  if c = .cmd ∧ (reqs mrq).switchVoltage then
    { h with state := .sendingCmd11, warned := h.warned || h.state ≠ .sendingCmd }
  else h

/-- `dw_mci_submit_data` -/
def dwMciSubmitData (h : Host) (mrq : ℕ) (data : Data) : Host :=
  { h.setDataError mrq (-einprogress) with
    data := true, sg := data.pio, dirStatus := some data.dir, warned := h.warned || h.data }

/-- The part of `__dw_mci_start_request` that forgets the request before. -/
def forgetEvents (h : Host) (mrq : ℕ) : Host :=
  { h with
    mrq := some mrq
    pending := ⟨false, false, false, false⟩
    completed := ⟨false, false, false⟩
    cmdStatus := 0
    dataStatus := 0
    dirStatus := none }

/-- The data of a command submitted, if it has any. -/
def submitCmdData (h : Host) (mrq : ℕ) (c : Role) : Host :=
  match cmdData reqs mrq c with
  | some data => dwMciSubmitData h mrq data
  | none => h

/-- The timer of `SD_SWITCH_VOLTAGE`. -/
def armCmd11 (h : Host) (mrq : ℕ) (c : Role) : Host :=
  if c = .cmd ∧ (reqs mrq).switchVoltage ∧ h.pending.cmdComplete = false then
    { h with cmd11Timer := true }
  else h

/-- `__dw_mci_start_request` -/
def startCmd (h : Host) (c : Role) : Host :=
  match h.slotMrq with
  | none => { h with fault := true }
  | some mrq =>
    let h := submitCmdData reqs (dwMciPrepareCommand reqs (forgetEvents h mrq) mrq c) mrq c
    let h := armCmd11 reqs (dwMciStartCommand h c ((reqs mrq).rspPresent c)) mrq c
    { h with stopCmdr := (cmdData reqs mrq c).isSome && (reqs mrq).abortable }

/-- `dw_mci_start_request` -/
def dwMciStartRequest (h : Host) : Host :=
  match h.slotMrq with
  | none => { h with fault := true }
  | some mrq => startCmd reqs h (if (reqs mrq).sbc then .sbc else .cmd)

/-- `dw_mci_queue_request` -/
def dwMciQueueRequest (h : Host) (mrq : ℕ) : Host :=
  let h := { h with
    slotMrq := some mrq
    state := if h.state = DwMciState.waitingCmd11Done then .idle else h.state }
  if h.state = .idle then dwMciStartRequest reqs { h with state := .sendingCmd }
  else { h with queued := true }

/-- What a request says when it is given back. -/
def Host.completion (h : Host) (mrq : ℕ) : Completion :=
  ⟨mrq, h.cmdError mrq, h.dataError mrq, h.bytesXfered mrq, h.completed⟩

/-- `dw_mci_request`, with whether a card is there. `mmc_mrq_prep` clears the errors of the request
before, and the layer above its count of bytes. -/
def dwMciRequest (h : Host) (mrq : ℕ) (present : Bool) : Host :=
  let h := { h with
    cmdError := Function.update h.cmdError mrq fun _ => 0
    dataError := Function.update h.dataError mrq 0
    bytesXfered := Function.update h.bytesXfered mrq 0
    warned := h.warned || h.slotMrq.isSome }
  if present then dwMciQueueRequest reqs h mrq
  else
    let h := h.setCmdError mrq .cmd (-enomedium)
    { h with ended := h.ended ++ [h.completion mrq] }

/-- `dw_mci_request_end` -/
def dwMciRequestEnd (h : Host) (mrq : ℕ) : Host :=
  let done := h.completion mrq
  let h := { h with warned := h.warned || h.cmd.isSome || h.data, slotMrq := none, mrq := none }
  let h :=
    if h.queued then dwMciStartRequest reqs { h with queued := false, state := .sendingCmd }
    else { h with state := if h.state = .sendingCmd11 then .waitingCmd11Done else .idle }
  { h with ended := h.ended ++ [done] }

/-- The error that `dw_mci_command_complete` reads off the status. -/
def commandError (mrq : ℕ) (c : Role) (status : BitVec 32) : ℤ :=
  if status &&& sdmmcIntRto ≠ 0 then -etimedout
  else if (reqs mrq).rspCrc c ∧ status &&& sdmmcIntRcrc ≠ 0 then -eilseq
  else if status &&& sdmmcIntRespErr ≠ 0 then -eio
  else 0

/-- `dw_mci_command_complete` -/
def dwMciCommandComplete (h : Host) (mrq : ℕ) (c : Role) : Host :=
  { h.setCmdError mrq c (commandError reqs mrq c h.cmdStatus) with cmdStatus := 0 }

/-- The error that `dw_mci_data_complete` reads off the status, if it sets one. -/
def dataStatusError (status : BitVec 32) (dirStatus : Option DataDir) : Option ℤ :=
  if status &&& sdmmcIntDrto ≠ 0 then some (-etimedout)
  else if status &&& sdmmcIntDcrc ≠ 0 then some (-eilseq)
  else if status &&& sdmmcIntEbe ≠ 0 then
    match dirStatus with
    | some .write => some (-etimedout)
    | some .read => some (-eilseq)
    | none => none
  else some (-eilseq)

/-- `dw_mci_data_complete` -/
def dwMciDataComplete (h : Host) (mrq : ℕ) (data : Data) : Host :=
  if h.dataStatus &&& dataErrorFlags ≠ 0 then
    let bytes := if h.dataStatus &&& (sdmmcIntDrto ||| sdmmcIntDcrc) = 0 ∧
        h.dataStatus &&& sdmmcIntEbe ≠ 0 ∧ h.dirStatus = some .write then 0 else h.bytesXfered mrq
    { h.setDataError mrq ((dataStatusError h.dataStatus h.dirStatus).getD (h.dataError mrq)) with
      bytesXfered := Function.update h.bytesXfered mrq bytes }
  else
    { h.setDataError mrq 0 with bytesXfered := Function.update h.bytesXfered mrq data.size }

/-- `dw_mci_clear_pending_cmd_complete`, where the event is there. -/
def clearCmdComplete (h : Host) : Host :=
  { h with
    pending := { h.pending with cmdComplete := false }
    ctoTimer := false
    warned := h.warned || h.ctoTimer }

/-- `dw_mci_clear_pending_data_complete`, where the event is there. -/
def clearDataComplete (h : Host) : Host :=
  { h with
    pending := { h.pending with dataComplete := false }
    dtoTimer := false
    warned := h.warned || h.dtoTimer }

/-- What `dw_mci_reset` does to `host->sg`. -/
def dwMciReset (h : Host) : Host := { h with sg := false }

/-! ### The tasklet -/

/-- The loop ends, and `host->state` is written. -/
def leave (h : Host) (state : DwMciState) : Host := { h with state := state, pc := .off }

/-- A null pointer is followed. -/
def crash (h : Host) : Host := { h with fault := true, pc := .off }

/-- A command that is complete is taken off the host, and its error is read. -/
def takeCommand (h : Host) (mrq : ℕ) (c : Role) : Host :=
  dwMciCommandComplete reqs { clearCmdComplete h with
    cmd := none, completed := { h.completed with cmd := true } } mrq c

/-- A command is complete. -/
def sendingCmdBody (h : Host) (state : DwMciState) : Host :=
  if h.pending.cmdComplete = false then leave h state
  else
    match h.mrq, h.cmd with
    | some mrq, some c =>
      let h := takeCommand reqs h mrq c
      let err := h.cmdError mrq c
      if c = .sbc ∧ err = 0 then { startCmd reqs h .cmd with pc := .off }
      else if (cmdData reqs mrq c).isSome ∧ err ≠ 0 then
        if err ≠ -etimedout ∧ (reqs mrq).tuning then { h with pc := .body .sendingData }
        else { sendStopAbort (dwMciStopDma h) with pc := .body .sendingStop }
      else if (cmdData reqs mrq c).isNone ∨ err ≠ 0 then
        { dwMciRequestEnd reqs h mrq with pc := .off }
      else { h with pc := .body .sendingData }
    | _, _ => crash h

/-- The data failed. -/
def dataFailed (h : Host) : Host :=
  let h := dwMciStopDma { h with pending := { h.pending with dataError := false } }
  let h := if h.dataStatus &&& (sdmmcIntDrto ||| sdmmcIntEbe) = 0 then sendStopAbort h else h
  { h with pc := .body .dataError }

/-- Data of a read is waited for, with a timer. -/
def awaitData (h : Host) (state : DwMciState) : Host :=
  leave (if h.dirStatus = some .read then dwMciSetDrto h else h) state

/-- Data is moved: the first test for a data error. -/
def sendingDataBody (h : Host) : Host :=
  if h.pending.dataError then dataFailed h else { h with pc := .xfer }

/-- The test for the end of the transfer. -/
def xferBody (h : Host) : Host :=
  if h.pending.xferComplete = false then awaitData h .sendingData
  else
    { h with
      pending := { h.pending with xferComplete := false }
      completed := { h.completed with xfer := true }
      pc := .checked }

/-- The second test for a data error. -/
def checkedBody (h : Host) : Host :=
  if h.pending.dataError then dataFailed h else { h with pc := .body .dataBusy }

/-- Data that is complete is taken off the host, and its error is read. -/
def takeData (h : Host) (mrq : ℕ) (data : Data) : Host :=
  dwMciDataComplete { clearDataComplete h with
    data := false, completed := { h.completed with data := true } } mrq data

/-- The data is moved, and the transfer is not complete. After an error the controller is about to
be reset. -/
def dataBusyBody (h : Host) : Host :=
  if h.pending.dataComplete = false then awaitData h .dataBusy
  else
    match h.mrq, h.data, h.mrq.bind fun mrq => (reqs mrq).data with
    | some mrq, true, some data =>
      let h := takeData h mrq data
      if h.dataError mrq = 0 then
        if (reqs mrq).stop = false ∨ (reqs mrq).sbc then
          let h := if (reqs mrq).sbc ∧ (reqs mrq).stop then h.setCmdError mrq .stop 0 else h
          { dwMciRequestEnd reqs h mrq with pc := .off }
        else { sendStopAbort h with pc := .body .sendingStop }
      else { h with pc := .reset }
    | _, _, _ => crash h

/-- The controller is reset after an error of the data. A command that is not complete then will
never be. -/
def resetBody (h : Host) : Host :=
  let h := dwMciReset h
  if h.pending.cmdComplete = false then
    match h.mrq with
    | some mrq => { dwMciRequestEnd reqs { h with cmd := none } mrq with pc := .off }
    | none => crash h
  else { h with pc := .body .sendingStop }

/-- The command that stops the transfer is sent. -/
def sendingStopBody (h : Host) : Host :=
  if h.pending.cmdComplete = false then leave h .sendingStop
  else
    match h.mrq with
    | some mrq =>
      let h := clearCmdComplete h
      let h := if h.cmdError mrq .cmd ≠ 0 ∧ (reqs mrq).data.isSome then dwMciReset h else h
      let h := { h with cmd := none, data := false }
      let h :=
        if (reqs mrq).sbc = false ∧ (reqs mrq).stop then dwMciCommandComplete reqs h mrq .stop
        else { h with cmdStatus := 0 }
      { dwMciRequestEnd reqs h mrq with pc := .off }
    | none => crash h

/-- After a data error, the end of the transfer by the controller is waited for. -/
def dataErrorBody (h : Host) : Host :=
  if h.pending.xferComplete = false then leave h .dataError
  else { h with pending := { h.pending with xferComplete := false }, pc := .body .dataBusy }

/-- One test of the events by `dw_mci_tasklet_func`, with what is done before the next one. -/
def taskletStep (h : Host) : Host :=
  match h.pc with
  | .off => { h with pc := .body h.state }
  | .xfer => xferBody h
  | .checked => checkedBody h
  | .reset => resetBody reqs h
  | .body .idle => leave h .idle
  | .body .waitingCmd11Done => leave h .waitingCmd11Done
  | .body .sendingCmd => sendingCmdBody reqs h .sendingCmd
  | .body .sendingCmd11 => sendingCmdBody reqs h .sendingCmd11
  | .body .sendingData => sendingDataBody h
  | .body .dataBusy => dataBusyBody reqs h
  | .body .sendingStop => sendingStopBody reqs h
  | .body .dataError => dataErrorBody h

end Driver

/-! ### Interrupts and timers -/

/-- `dw_mci_cmd_interrupt` -/
def dwMciCmdInterrupt (h : Host) (status : BitVec 32) : Host :=
  { h with
    ctoTimer := false
    cmdStatus := if h.cmdStatus = 0 then status else h.cmdStatus
    pending := { h.pending with cmdComplete := true } }

/-- A command error in `dw_mci_interrupt`. -/
def cmdErrorInterrupt (h : Host) (status : BitVec 32) : Host :=
  { h with
    ctoTimer := false
    cmdStatus := status
    pending := { h.pending with cmdComplete := true } }

/-- A data error in `dw_mci_interrupt`. -/
def dataErrorInterrupt (h : Host) (status : BitVec 32) : Host :=
  { h with dataStatus := status, pending := { h.pending with dataError := true } }

/-- `SDMMC_INT_DATA_OVER` in `dw_mci_interrupt`. -/
def dataOverInterrupt (h : Host) (status : BitVec 32) : Host :=
  { h with
    dtoTimer := false
    dataStatus := if h.dataStatus = 0 then status else h.dataStatus
    pending := { h.pending with dataComplete := true } }

/-- The end of the data in `dw_mci_read_data_pio` and `dw_mci_write_data_pio`. -/
def endPio (h : Host) (done : Bool) : Host :=
  if done then { h with sg := false, pending := { h.pending with xferComplete := true } } else h

/-- `dw_mci_read_data_pio` and `dw_mci_write_data_pio`, with the bytes that they move and whether
the data ends; `none` if they follow `host->data` where it is null. -/
def dwMciDataPio (h : Host) (bytes : ℕ) (done : Bool) : Option Host :=
  if bytes = 0 then some (endPio h done)
  else
    -- `host->data` is the data of `host->mrq`
    match h.mrq, h.data with
    | some mrq, true =>
      let bytesXfered := h.bytesXfered mrq + bytes
      some (endPio { h with bytesXfered := Function.update h.bytesXfered mrq bytesXfered } done)
    | _, _ => none

/-- `SDMMC_INT_RXDR` and `SDMMC_INT_TXDR` in `dw_mci_interrupt`, and what `SDMMC_INT_DATA_OVER`
reads before the data is complete. -/
def dataReadyInterrupt (h : Host) (dir : DataDir) (bytes : ℕ) (done : Bool) : Option Host :=
  if h.dirStatus = some dir ∧ h.sg then dwMciDataPio h bytes done else some h

/-- `dw_mci_dmac_complete_dma` -/
def dwMciDmacCompleteDma (h : Host) : Host :=
  if h.data then { h with pending := { h.pending with xferComplete := true } } else h

/-- `dw_mci_cto_timer`, with whether an interrupt of the command is about to come. -/
def dwMciCtoTimer (h : Host) (coming : Bool) : Host :=
  if coming ∨ h.pending.cmdComplete then h
  else if h.state = .sendingCmd11 ∨ h.state = .sendingCmd ∨ h.state = .sendingStop then
    { h with cmdStatus := sdmmcIntRto, pending := { h.pending with cmdComplete := true } }
  else h

/-- `dw_mci_dto_timer`, with whether an interrupt of the data is about to come. -/
def dwMciDtoTimer (h : Host) (coming : Bool) : Host :=
  if coming ∨ h.pending.dataComplete then h
  else if h.state = .sendingData ∨ h.state = .dataBusy then
    { h with
      dataStatus := sdmmcIntDrto
      pending := { h.pending with dataError := true, dataComplete := true } }
  else h

/-- `dw_mci_cmd11_timer` -/
def dwMciCmd11Timer (h : Host) : Host :=
  if h.state = .sendingCmd11 then
    { h with cmdStatus := sdmmcIntRto, pending := { h.pending with cmdComplete := true } }
  else h

/-! ### The system -/

/-- What may happen to the host. An interrupt raises its events one after another, each of them as
an action of its own; the end of a DMA transfer may be told at any time. -/
inductive Action
  | request (mrq : ℕ) (present : Bool)
  | tasklet
  | voltSwitch (status : BitVec 32)
  | cmdError (status : BitVec 32)
  | dataError (status : BitVec 32)
  | dataOver (status : BitVec 32)
  | cmdDone (status : BitVec 32)
  | dataReady (dir : DataDir) (bytes : ℕ) (done : Bool)
  | dmaComplete
  | ctoTimer (coming : Bool)
  | dtoTimer (coming : Bool)
  | cmd11Timer
  | setIos (clock : Bool)
  deriving DecidableEq

/-- The host, the requests issued so far, and whether an interrupt has followed `host->data` where
it was null. -/
structure State where
  host : Host
  issued : List ℕ
  irqFault : Bool

/-- The host after `dw_mci_probe`. -/
def Host.init : Host where
  state := .idle
  pc := .off
  mrq := none
  slotMrq := none
  queued := false
  cmd := none
  data := false
  sg := false
  stopCmdr := false
  pending := ⟨false, false, false, false⟩
  completed := ⟨false, false, false⟩
  cmdStatus := 0
  dataStatus := 0
  dirStatus := none
  ctoTimer := false
  dtoTimer := false
  cmd11Timer := false
  cmdError := fun _ _ => 0
  dataError := fun _ => 0
  bytesXfered := fun _ => 0
  ended := []
  warned := false
  fault := false

/-- The host with everything that acts on it. A request with a card needs the lock that the tasklet
holds; an error interrupt has an error flag, and a timer expires only if it was armed. -/
def taskletSystem (reqs : ℕ → Mrq) : Lts State Action where
  init := ⟨.init, [], false⟩
  next s
    | .request mrq present =>
      if present = false ∨ s.host.pc = .off then
        some { s with host := dwMciRequest reqs s.host mrq present, issued := s.issued ++ [mrq] }
      else none
    | .tasklet => some { s with host := taskletStep reqs s.host }
    | .voltSwitch status =>
      if s.host.state = .sendingCmd11 then
        some { s with host := { dwMciCmdInterrupt s.host status with cmd11Timer := false } }
      else none
    | .cmdError status =>
      if status &&& cmdErrorFlags ≠ 0 then
        some { s with host := cmdErrorInterrupt s.host status }
      else none
    | .dataError status =>
      if status &&& dataErrorFlags ≠ 0 then
        some { s with host := dataErrorInterrupt s.host status }
      else none
    | .dataOver status => some { s with host := dataOverInterrupt s.host status }
    | .cmdDone status => some { s with host := dwMciCmdInterrupt s.host status }
    | .dataReady dir bytes done =>
      some { s with
        host := (dataReadyInterrupt s.host dir bytes done).getD s.host
        irqFault := s.irqFault || (dataReadyInterrupt s.host dir bytes done).isNone }
    | .dmaComplete => some { s with host := dwMciDmacCompleteDma s.host }
    | .ctoTimer coming =>
      if s.host.ctoTimer then
        some { s with host := dwMciCtoTimer { s.host with ctoTimer := false } coming }
      else none
    | .dtoTimer coming =>
      if s.host.dtoTimer then
        some { s with host := dwMciDtoTimer { s.host with dtoTimer := false } coming }
      else none
    | .cmd11Timer =>
      if s.host.cmd11Timer then
        some { s with host := dwMciCmd11Timer { s.host with cmd11Timer := false } }
      else none
    | .setIos clock =>
      if clock ∧ s.host.state = .waitingCmd11Done then
        some { s with host := { s.host with state := .idle } }
      else some s

end LinuxDriver.DwMmc.Tasklet
