import LinuxDriver.DwMmc.Tasklet

/-!
# The requests of the DesignWare MMC host

The host has one request at a time, and the stage that the tasklet has come to says which of its
commands is sent, whether its data is there, and what is known of it. The stages are kept by every
event at any time. So each request is given back once, and one that says that all went well has
moved all its data: a data error that was raised is in the status of the data until the request
ends.

## Main definitions

* `Host.stage`, `InStage`: where a request is, and what holds there.
* `Inv`: the invariant of the host.
* `InOrder`: what the layer above and the lengths of the timers ensure.
* `FindsData`: an interrupt that moves data finds it on the host.

## Main results

* `inv_next`: the step lemma.
* `requests_given_back`: where the requests are, in every run.
* `given_back_sound`: what a request without an error says.
* `tasklet_leaves`: the tasklet ends after eight tests, whatever comes while it runs.
-/

namespace LinuxDriver.DwMmc.Tasklet

variable {reqs : ℕ → Mrq} {h h' : Host} {m : ℕ} {c : Role} {issued : List ℕ} {p : Pc}

/-! ### The invariant -/

/-- The status of the data has an error. -/
def Failed (h : Host) : Prop := h.dataStatus &&& dataErrorFlags ≠ 0

/-- Where the tasklet is, or will begin. -/
def Host.stage (h : Host) : Pc := if h.pc = .off then .body h.state else h.pc

/-- What holds of the request of the host in a stage. -/
def InStage (reqs : ℕ → Mrq) (h : Host) (m : ℕ) : Pc → Prop
  | .off | .body .idle | .body .waitingCmd11Done => False
  | .body .sendingCmd => h.state = .sendingCmd ∧
      (h.cmd = some .sbc ∧ h.data = false ∨ h.cmd = some .cmd ∧ h.data = (reqs m).data.isSome)
  | .body .sendingCmd11 =>
      h.state = .sendingCmd11 ∧ h.cmd = some .cmd ∧ h.data = (reqs m).data.isSome
  | .body .sendingData | .xfer =>
      h.data = true ∧ (reqs m).data.isSome ∧ h.completed.cmd = true ∧ h.cmd = none
  | .checked => h.data = true ∧ (reqs m).data.isSome ∧ h.completed.cmd = true ∧
      h.cmd = none ∧ h.completed.xfer = true
  | .body .dataBusy => h.data = true ∧ (reqs m).data.isSome ∧ h.completed.cmd = true ∧
      (Failed h ∨ h.cmd = none ∧ h.completed.xfer = true)
  | .body .dataError =>
      h.data = true ∧ (reqs m).data.isSome ∧ h.completed.cmd = true ∧ Failed h
  | .reset => h.data = false ∧ (reqs m).data.isSome ∧ h.dataError m ≠ 0
  | .body .sendingStop => (reqs m).data.isSome ∧
      (h.cmdError m .cmd ≠ 0 ∨ h.dataError m ≠ 0 ∨
        h.data = false ∧ h.completed = ⟨true, true, true⟩ ∧
          ∀ d ∈ (reqs m).data, h.bytesXfered m = d.size)

/-- The host waits for a request. -/
def DwMciState.Idle (state : DwMciState) : Prop := state = .idle ∨ state = .waitingCmd11Done

/-- The request of the host, or that there is none. -/
def Staged (reqs : ℕ → Mrq) (h : Host) : Prop :=
  match h.mrq with
  | none => h.state.Idle ∧ (∃ st : DwMciState, st.Idle ∧ h.stage = .body st) ∧ h.cmd = none ∧
      h.data = false
  | some m => ¬h.state.Idle ∧ InStage reqs h m h.stage

/-- A request that says that all went well had all its events, and moved all its data. -/
def Completion.Sound (reqs : ℕ → Mrq) (c : Completion) : Prop :=
  c.cmdError .sbc = 0 → c.cmdError .cmd = 0 → c.dataError = 0 →
    c.completed.cmd = true ∧ ∀ d ∈ (reqs c.mrq).data,
      c.completed = ⟨true, true, true⟩ ∧ c.bytesXfered = d.size

/-- The invariant of the host. -/
structure Inv (reqs : ℕ → Mrq) (issued : List ℕ) (h : Host) : Prop where
  slot : h.slotMrq = h.mrq
  queued : h.queued = false
  staged : Staged reqs h
  error : h.pending.dataError = true → Failed h
  unended : h.data = true → ∀ m ∈ h.mrq, h.dataError m ≠ 0
  cto : h.ctoTimer = true → h.pending.cmdComplete = false
  dto : h.dtoTimer = true → h.pending.dataComplete = false
  unwarned : h.warned = false
  sane : h.fault = false
  issued : issued = h.ended.map Completion.mrq ++ h.mrq.toList
  sound : ∀ c ∈ h.ended, c.Sound reqs

theorem stage_of_off (h : Host) (hpc : h.pc = .off) : h.stage = .body h.state := if_pos hpc

theorem stage_of_ne (h : Host) (hpc : h.pc ≠ .off) : h.stage = h.pc := if_neg hpc

/-! ### Commands that are sent -/

/-- What the functions that send a command leave alone. -/
structure Frame (h h' : Host) : Prop where
  state : h'.state = h.state
  pc : h'.pc = h.pc
  mrq : h'.mrq = h.mrq
  slot : h'.slotMrq = h.slotMrq
  queued : h'.queued = h.queued
  pending : h'.pending = h.pending
  completed : h'.completed = h.completed
  dataStatus : h'.dataStatus = h.dataStatus
  dtoTimer : h'.dtoTimer = h.dtoTimer
  ended : h'.ended = h.ended
  fault : h'.fault = h.fault

theorem frame_dwMciStartCommand (h : Host) (c : Role) (respExp : Bool) :
    Frame h (dwMciStartCommand h c respExp) := by
  unfold dwMciStartCommand dwMciSetCto
  split_ifs <;> exact ⟨rfl, rfl, rfl, rfl, rfl, rfl, rfl, rfl, rfl, rfl, rfl⟩

/-- The command that is sent, and the timer that is armed only if the command is not complete. -/
theorem dwMciStartCommand_spec (h : Host) (c : Role) (respExp : Bool) :
    (dwMciStartCommand h c respExp).cmd = some c ∧
      (dwMciStartCommand h c respExp).data = h.data ∧
      (dwMciStartCommand h c respExp).cmdError = h.cmdError ∧
      (dwMciStartCommand h c respExp).dataError = h.dataError ∧
      (dwMciStartCommand h c respExp).bytesXfered = h.bytesXfered ∧
      (dwMciStartCommand h c respExp).warned = h.warned ∧
      ((dwMciStartCommand h c respExp).ctoTimer = true →
        h.ctoTimer = true ∨ h.pending.cmdComplete = false) := by
  unfold dwMciStartCommand dwMciSetCto
  split_ifs with hexp hcomplete
  · exact ⟨rfl, rfl, rfl, rfl, rfl, rfl, .inl⟩
  · exact ⟨rfl, rfl, rfl, rfl, rfl, rfl, fun _ => .inr (Bool.eq_false_iff.mpr hcomplete)⟩
  · exact ⟨rfl, rfl, rfl, rfl, rfl, rfl, .inl⟩

theorem submitCmdData_spec (reqs : ℕ → Mrq) (h : Host) (m : ℕ) (c : Role) (hdata : h.data = false) :
    Frame h (submitCmdData reqs h m c) ∧
      (submitCmdData reqs h m c).data = (cmdData reqs m c).isSome ∧
      (submitCmdData reqs h m c).warned = h.warned ∧
      ((submitCmdData reqs h m c).data = true → (submitCmdData reqs h m c).dataError m ≠ 0) := by
  unfold submitCmdData
  cases cmdData reqs m c with
  | none =>
    refine ⟨⟨rfl, rfl, rfl, rfl, rfl, rfl, rfl, rfl, rfl, rfl, rfl⟩, hdata, rfl, fun h => ?_⟩
    exact nomatch hdata.symm.trans h
  | some data =>
    refine ⟨⟨rfl, rfl, rfl, rfl, rfl, rfl, rfl, rfl, rfl, rfl, rfl⟩, rfl, ?_, fun _ => ?_⟩
    · simp [dwMciSubmitData, Host.setDataError, hdata]
    · have herror : (dwMciSubmitData h m data).dataError m = -einprogress := by
        simp [dwMciSubmitData, Host.setDataError]
      rw [herror]
      decide

theorem armCmd11_spec (reqs : ℕ → Mrq) (h : Host) (m : ℕ) (c : Role) :
    Frame h (armCmd11 reqs h m c) ∧ (armCmd11 reqs h m c).cmd = h.cmd ∧
      (armCmd11 reqs h m c).data = h.data ∧ (armCmd11 reqs h m c).dataError = h.dataError ∧
      (armCmd11 reqs h m c).warned = h.warned := by
  unfold armCmd11
  split_ifs <;> exact ⟨⟨rfl, rfl, rfl, rfl, rfl, rfl, rfl, rfl, rfl, rfl, rfl⟩, rfl, rfl, rfl, rfl⟩

/-- A command that begins or goes on with a request. -/
structure Started (reqs : ℕ → Mrq) (h : Host) (m : ℕ) (c : Role) (h' : Host) : Prop where
  mrq : h'.mrq = some m
  slot : h'.slotMrq = some m
  queued : h'.queued = h.queued
  cmd : h'.cmd = some c
  data : h'.data = (cmdData reqs m c).isSome
  unended : h'.data = true → h'.dataError m ≠ 0
  state : h'.state = if c = .cmd ∧ (reqs m).switchVoltage then .sendingCmd11 else .sendingCmd
  pending : h'.pending = ⟨false, false, false, false⟩
  ended : h'.ended = h.ended
  warned : h'.warned = h.warned
  fault : h'.fault = h.fault

/-- Before a command that switches the voltage, the host is in the state that it expects. -/
theorem dwMciPrepareCommand_spec (reqs : ℕ → Mrq) (h : Host) (m : ℕ) (c : Role)
    (hstate : h.state = .sendingCmd) :
    (dwMciPrepareCommand reqs h m c).state =
        (if c = .cmd ∧ (reqs m).switchVoltage then .sendingCmd11 else .sendingCmd) ∧
      (dwMciPrepareCommand reqs h m c).warned = h.warned ∧
      (dwMciPrepareCommand reqs h m c).pc = h.pc ∧ (dwMciPrepareCommand reqs h m c).mrq = h.mrq ∧
      (dwMciPrepareCommand reqs h m c).slotMrq = h.slotMrq ∧
      (dwMciPrepareCommand reqs h m c).queued = h.queued ∧
      (dwMciPrepareCommand reqs h m c).data = h.data ∧
      (dwMciPrepareCommand reqs h m c).pending = h.pending ∧
      (dwMciPrepareCommand reqs h m c).ended = h.ended ∧
      (dwMciPrepareCommand reqs h m c).fault = h.fault := by
  unfold dwMciPrepareCommand
  dsimp only
  split_ifs with hvolt
  · refine ⟨rfl, ?_, rfl, rfl, rfl, rfl, rfl, rfl, rfl, rfl⟩
    simp [Host.setCmdError, hstate]
  · exact ⟨hstate, rfl, rfl, rfl, rfl, rfl, rfl, rfl, rfl, rfl⟩

theorem startCmd_started (reqs : ℕ → Mrq) (hslot : h.slotMrq = some m) (hdata : h.data = false)
    (hstate : h.state = .sendingCmd) (c : Role) :
    Started reqs h m c (startCmd reqs h c) ∧ (startCmd reqs h c).pc = h.pc := by
  obtain ⟨hst, hwarned, hpc, hmrq, hsl, hqueued, hd, hpending, hended, hfault⟩ :=
    dwMciPrepareCommand_spec reqs (forgetEvents h m) m c hstate
  unfold startCmd
  rw [hslot]
  dsimp only
  generalize dwMciPrepareCommand reqs (forgetEvents h m) m c = u at *
  obtain ⟨hf₁, hd₁, hw₁, he₁⟩ := submitCmdData_spec reqs u m c (hd.trans hdata)
  generalize submitCmdData reqs u m c = u₁ at *
  have hf₂ := frame_dwMciStartCommand u₁ c ((reqs m).rspPresent c)
  obtain ⟨hc₂, hd₂, -, he₂, -, hw₂, -⟩ := dwMciStartCommand_spec u₁ c ((reqs m).rspPresent c)
  generalize dwMciStartCommand u₁ c ((reqs m).rspPresent c) = u₂ at *
  obtain ⟨hf₃, hc₃, hd₃, he₃, hw₃⟩ := armCmd11_spec reqs u₂ m c
  generalize armCmd11 reqs u₂ m c = u₃ at *
  refine ⟨?_, hf₃.pc.trans (hf₂.pc.trans (hf₁.pc.trans hpc))⟩
  exact {
    mrq := hf₃.mrq.trans (hf₂.mrq.trans (hf₁.mrq.trans hmrq))
    slot := hf₃.slot.trans (hf₂.slot.trans (hf₁.slot.trans (hsl.trans hslot)))
    queued := hf₃.queued.trans (hf₂.queued.trans (hf₁.queued.trans hqueued))
    cmd := hc₃.trans hc₂
    data := hd₃.trans (hd₂.trans hd₁)
    unended := fun hd => by
      change u₃.dataError m ≠ 0
      rw [he₃, he₂]
      exact he₁ ((hd₃.trans hd₂).symm.trans hd)
    state := hf₃.state.trans (hf₂.state.trans (hf₁.state.trans hst))
    pending := hf₃.pending.trans (hf₂.pending.trans (hf₁.pending.trans hpending))
    ended := hf₃.ended.trans (hf₂.ended.trans (hf₁.ended.trans hended))
    warned := hw₃.trans (hw₂.trans (hw₁.trans hwarned))
    fault := hf₃.fault.trans (hf₂.fault.trans (hf₁.fault.trans hfault)) }

/-- A request in the stage of its first command. -/
theorem Started.inStage (hs : Started reqs h m c h') (hc : c ≠ .stop) :
    ¬h'.state.Idle ∧ InStage reqs h' m (.body h'.state) := by
  have hstate := hs.state
  split_ifs at hstate with hvolt
  · rw [hstate]
    refine ⟨by simp [DwMciState.Idle], hstate, by rw [hs.cmd, hvolt.1], ?_⟩
    rw [hs.data, cmdData, if_pos hvolt.1]
  · rw [hstate]
    refine ⟨by simp [DwMciState.Idle], hstate, ?_⟩
    cases c with
    | sbc => exact .inl ⟨hs.cmd, hs.data⟩
    | cmd => exact .inr ⟨hs.cmd, hs.data⟩
    | stop => exact absurd rfl hc

/-- The invariant with the first command of a request, or with the one after the block count. -/
theorem Started.inv (hs : Started reqs h m c h') (hc : c ≠ .stop) (hpc : h'.pc = .off)
    (hqueued : h.queued = false) (hwarned : h.warned = false) (hfault : h.fault = false)
    (hissued : issued = h.ended.map Completion.mrq ++ [m]) (hsound : ∀ c ∈ h.ended, c.Sound reqs) :
    Inv reqs issued h' where
  slot := hs.slot.trans hs.mrq.symm
  queued := hs.queued.trans hqueued
  staged := by
    rw [Staged, hs.mrq, stage_of_off h' hpc]
    exact hs.inStage hc
  error he := by
    rw [hs.pending] at he
    exact nomatch he
  unended hd m' hm' := by
    obtain rfl := Option.some.inj (hs.mrq.symm.trans hm')
    exact hs.unended hd
  cto _ := by rw [hs.pending]
  dto _ := by rw [hs.pending]
  unwarned := hs.warned.trans hwarned
  sane := hs.fault.trans hfault
  issued := by
    rw [hs.mrq, hs.ended]
    exact hissued
  sound := by
    rw [hs.ended]
    exact hsound

/-! ### Requests that come and go -/

/-- **A request is issued** to a host that has none. -/
theorem Inv.request (hi : Inv reqs issued h) (hslot : h.slotMrq = none) (present : Bool)
    (hpc : present = false ∨ h.pc = .off) :
    Inv reqs (issued ++ [m]) (dwMciRequest reqs h m present) := by
  have hmrq : h.mrq = none := hi.slot.symm.trans hslot
  have hstaged := hi.staged
  rw [Staged, hmrq] at hstaged
  obtain ⟨hidle, hstage, hcmd, hdata⟩ := hstaged
  have hissued := hi.issued
  rw [hmrq, Option.toList_none, List.append_nil] at hissued
  have hwarned : (h.warned || h.slotMrq.isSome) = false := by rw [hi.unwarned, hslot]; rfl
  unfold dwMciRequest
  extract_lets u v
  cases present with
  | true =>
    have hoff : h.pc = .off := hpc.resolve_left (by decide)
    -- the host is idle, or waits for a voltage switch that did not end
    have hstate : (if u.state = DwMciState.waitingCmd11Done then .idle else u.state) =
        DwMciState.idle := by
      rcases hidle with h | h
      · rw [if_neg (by rw [show u.state = .idle from h]; decide)]
        exact h
      · exact if_pos h
    rw [if_pos rfl]
    unfold dwMciQueueRequest
    dsimp only
    rw [if_pos hstate]
    unfold dwMciStartRequest
    dsimp only
    obtain ⟨hs, hpc'⟩ := startCmd_started reqs (m := m)
      (h := { u with slotMrq := some m, state := .sendingCmd }) rfl hdata rfl
      (if (reqs m).sbc then .sbc else .cmd)
    refine hs.inv ?_ (hpc'.trans hoff) hi.queued hwarned hi.sane ?_ hi.sound
    · split_ifs <;> decide
    · rw [hissued]
  | false =>
    rw [if_neg Bool.false_ne_true]
    refine ⟨hslot.trans hmrq.symm, hi.queued, ?_, hi.error, fun _ m' hm' => ?_, hi.cto, hi.dto,
      hwarned, hi.sane, ?_, fun c hc => ?_⟩
    · rw [Staged]
      change match h.mrq with | none => _ | some m => _
      rw [hmrq]
      exact ⟨hidle, hstage, hcmd, hdata⟩
    · exact nomatch hmrq.symm.trans hm'
    · change _ = (h.ended ++ [_]).map _ ++ h.mrq.toList
      rw [hissued, hmrq, Option.toList_none, List.append_nil, List.map_append]
      rfl
    · rcases List.mem_append.mp hc with hc | hc
      · exact hi.sound c hc
      · obtain rfl := List.mem_singleton.mp hc
        intro _ hzero _
        have herror : v.cmdError m .cmd = -enomedium := by simp [v, Host.setCmdError]
        exact absurd (herror.symm.trans hzero) (by decide)

/-! ### Events that are raised -/

/-- What interrupts and timers leave alone. -/
structure Event (h h' : Host) : Prop where
  state : h'.state = h.state
  pc : h'.pc = h.pc
  mrq : h'.mrq = h.mrq
  slot : h'.slotMrq = h.slotMrq
  queued : h'.queued = h.queued
  cmd : h'.cmd = h.cmd
  data : h'.data = h.data
  completed : h'.completed = h.completed
  cmdError : h'.cmdError = h.cmdError
  dataError : h'.dataError = h.dataError
  bytes : h.data = true ∨ h'.bytesXfered = h.bytesXfered
  ended : h'.ended = h.ended
  warned : h'.warned = h.warned
  fault : h'.fault = h.fault
  failed : Failed h → Failed h'

/-- Flags, timers and the status of the command change. -/
theorem Event.of_flags (h : Host) (pending : Pending) (cmdStatus : BitVec 32)
    (ctoTimer dtoTimer cmd11Timer : Bool) :
    Event h { h with pending, cmdStatus, ctoTimer, dtoTimer, cmd11Timer } :=
  ⟨rfl, rfl, rfl, rfl, rfl, rfl, rfl, rfl, rfl, rfl, .inr rfl, rfl, rfl, rfl, id⟩

/-- Flags change, and the status of the data, which keeps its error. -/
theorem Event.of_dataStatus (h : Host) (pending : Pending) (dtoTimer : Bool)
    {dataStatus : BitVec 32} (hfailed : Failed h → dataStatus &&& dataErrorFlags ≠ 0) :
    Event h { h with pending, dtoTimer, dataStatus } :=
  ⟨rfl, rfl, rfl, rfl, rfl, rfl, rfl, rfl, rfl, rfl, .inr rfl, rfl, rfl, rfl, hfailed⟩

theorem event_dataOverInterrupt (h : Host) (status : BitVec 32) :
    Event h (dataOverInterrupt h status) := by
  refine .of_dataStatus _ _ _ fun hf => ?_
  -- a status with an error is kept
  have hne : h.dataStatus ≠ 0 := fun h0 => hf (by simp [h0])
  rwa [if_neg hne]

theorem endPio_cases (h : Host) (done : Bool) :
    ∃ sg xfer,
      endPio h done = { h with sg, pending := { h.pending with xferComplete := xfer } } := by
  unfold endPio
  split_ifs
  · exact ⟨_, _, rfl⟩
  · exact ⟨h.sg, h.pending.xferComplete, rfl⟩

/-- Moving data changes what is counted of it, where it is there, and says when it ends. -/
theorem dataReadyInterrupt_cases (h : Host) (dir : DataDir) (bytes : ℕ) (done : Bool) :
    ∃ sg xfer bytesXfered, (h.data = true ∨ bytesXfered = h.bytesXfered) ∧
      (dataReadyInterrupt h dir bytes done).getD h =
        { h with sg, pending := { h.pending with xferComplete := xfer }, bytesXfered } := by
  have hstill : ∃ sg xfer bytesXfered, (h.data = true ∨ bytesXfered = h.bytesXfered) ∧
      h = { h with sg, pending := { h.pending with xferComplete := xfer }, bytesXfered } :=
    ⟨h.sg, h.pending.xferComplete, h.bytesXfered, .inr rfl, rfl⟩
  unfold dataReadyInterrupt dwMciDataPio
  split_ifs
  · obtain ⟨sg, xfer, heq⟩ := endPio_cases h done
    exact ⟨sg, xfer, h.bytesXfered, .inr rfl, heq⟩
  · split
    next m hmrq hdata =>
      dsimp only
      obtain ⟨sg, xfer, heq⟩ := endPio_cases
        { h with bytesXfered := Function.update h.bytesXfered m (h.bytesXfered m + bytes) } done
      exact ⟨sg, xfer, _, .inl hdata, heq⟩
    next => exact hstill
  · exact hstill

theorem event_dataReadyInterrupt (h : Host) (dir : DataDir) (bytes : ℕ) (done : Bool) :
    Event h ((dataReadyInterrupt h dir bytes done).getD h) := by
  obtain ⟨sg, xfer, bytesXfered, hbytes, heq⟩ := dataReadyInterrupt_cases h dir bytes done
  rw [heq]
  exact ⟨rfl, rfl, rfl, rfl, rfl, rfl, rfl, rfl, rfl, rfl, hbytes, rfl, rfl, rfl, id⟩

theorem event_dwMciDmacCompleteDma (h : Host) : Event h (dwMciDmacCompleteDma h) := by
  unfold dwMciDmacCompleteDma
  split_ifs <;> exact .of_flags _ _ _ _ _ _

theorem event_dwMciCtoTimer (h : Host) (coming : Bool) :
    Event h (dwMciCtoTimer { h with ctoTimer := false } coming) := by
  unfold dwMciCtoTimer
  split_ifs <;> exact .of_flags _ _ _ _ _ _

theorem event_dwMciDtoTimer (h : Host) (coming : Bool) :
    Event h (dwMciDtoTimer { h with dtoTimer := false } coming) := by
  unfold dwMciDtoTimer
  split_ifs
  · exact .of_flags _ _ _ _ _ _
  · exact .of_dataStatus _ _ _ fun _ => (by decide : sdmmcIntDrto &&& dataErrorFlags ≠ 0)
  · exact .of_flags _ _ _ _ _ _

theorem event_dwMciCmd11Timer (h : Host) :
    Event h (dwMciCmd11Timer { h with cmd11Timer := false }) := by
  unfold dwMciCmd11Timer
  split_ifs <;> exact .of_flags _ _ _ _ _ _

/-- An action that raises events and does nothing else. -/
def Action.Raises : Action → Prop
  | .request _ _ | .tasklet | .setIos _ => False
  | _ => True

theorem event_next {s s' : State} {a : Action} (ha : a.Raises)
    (hnext : (taskletSystem reqs).next s a = some s') : Event s.host s'.host := by
  cases a with
  | request m present => exact ha.elim
  | tasklet => exact ha.elim
  | setIos clock => exact ha.elim
  | voltSwitch status =>
    obtain ⟨-, rfl⟩ := Option.ite_some_none_eq_some.mp hnext
    exact .of_flags _ _ _ _ _ _
  | cmdError status =>
    obtain ⟨-, rfl⟩ := Option.ite_some_none_eq_some.mp hnext
    exact .of_flags _ _ _ _ _ _
  | dataError status =>
    obtain ⟨hstatus, rfl⟩ := Option.ite_some_none_eq_some.mp hnext
    exact .of_dataStatus _ _ _ fun _ => hstatus
  | dataOver status =>
    obtain rfl := Option.some.inj hnext
    exact event_dataOverInterrupt _ _
  | cmdDone status =>
    obtain rfl := Option.some.inj hnext
    exact .of_flags _ _ _ _ _ _
  | dataReady dir bytes done =>
    obtain rfl := Option.some.inj hnext
    exact event_dataReadyInterrupt _ _ _ _
  | dmaComplete =>
    obtain rfl := Option.some.inj hnext
    exact event_dwMciDmacCompleteDma _
  | ctoTimer coming =>
    obtain ⟨-, rfl⟩ := Option.ite_some_none_eq_some.mp hnext
    exact event_dwMciCtoTimer _ _
  | dtoTimer coming =>
    obtain ⟨-, rfl⟩ := Option.ite_some_none_eq_some.mp hnext
    exact event_dwMciDtoTimer _ _
  | cmd11Timer =>
    obtain ⟨-, rfl⟩ := Option.ite_some_none_eq_some.mp hnext
    exact event_dwMciCmd11Timer _

theorem Event.inStage (he : Event h h') (hs : InStage reqs h m p) : InStage reqs h' m p := by
  cases p with
  | off => exact hs
  | xfer =>
    obtain ⟨hdata, hsome, hcompleted, hcmd⟩ := hs
    exact ⟨he.data.trans hdata, hsome, he.completed ▸ hcompleted, he.cmd.trans hcmd⟩
  | reset =>
    obtain ⟨hdata, hsome, herror⟩ := hs
    exact ⟨he.data.trans hdata, hsome, he.dataError ▸ herror⟩
  | checked =>
    obtain ⟨hdata, hsome, hcompleted, hcmd, hxfer⟩ := hs
    exact ⟨he.data.trans hdata, hsome, he.completed ▸ hcompleted, he.cmd.trans hcmd,
      he.completed ▸ hxfer⟩
  | body state =>
    cases state with
    | idle => exact hs
    | waitingCmd11Done => exact hs
    | sendingCmd =>
      refine ⟨he.state.trans hs.1, hs.2.imp (fun h => ?_) fun h => ?_⟩
      · exact ⟨he.cmd.trans h.1, he.data.trans h.2⟩
      · exact ⟨he.cmd.trans h.1, he.data.trans h.2⟩
    | sendingCmd11 => exact ⟨he.state.trans hs.1, he.cmd.trans hs.2.1, he.data.trans hs.2.2⟩
    | sendingData =>
      obtain ⟨hdata, hsome, hcompleted, hcmd⟩ := hs
      exact ⟨he.data.trans hdata, hsome, he.completed ▸ hcompleted, he.cmd.trans hcmd⟩
    | dataBusy =>
      obtain ⟨hdata, hsome, hcompleted, hlast⟩ := hs
      refine ⟨he.data.trans hdata, hsome, he.completed ▸ hcompleted,
        hlast.imp he.failed fun h => ?_⟩
      exact ⟨he.cmd.trans h.1, he.completed ▸ h.2⟩
    | dataError =>
      obtain ⟨hdata, hsome, hcompleted, hfailed⟩ := hs
      exact ⟨he.data.trans hdata, hsome, he.completed ▸ hcompleted, he.failed hfailed⟩
    | sendingStop =>
      rw [InStage, he.cmdError, he.dataError, he.completed, he.data]
      refine ⟨hs.1, hs.2.imp id (Or.imp id fun h => ⟨h.1, h.2.1, ?_⟩)⟩
      rw [he.bytes.resolve_left (by rw [h.1]; decide)]
      exact h.2.2

/-- **An event is raised**, at any time. -/
theorem Inv.event (hi : Inv reqs issued h) (he : Event h h')
    (herror : h'.pending.dataError = true → Failed h')
    (hcto : h'.ctoTimer = true → h'.pending.cmdComplete = false)
    (hdto : h'.dtoTimer = true → h'.pending.dataComplete = false) : Inv reqs issued h' where
  slot := he.slot.trans (hi.slot.trans he.mrq.symm)
  queued := he.queued.trans hi.queued
  staged := by
    have hstage : h'.stage = h.stage := by rw [Host.stage, he.pc, he.state, Host.stage]
    have hs := hi.staged
    unfold Staged at hs ⊢
    rw [he.mrq, hstage, he.state, he.cmd, he.data]
    cases hm : h.mrq with
    | none =>
      rw [hm] at hs
      exact hs
    | some m =>
      rw [hm] at hs
      exact ⟨hs.1, he.inStage hs.2⟩
  error := herror
  unended := by
    rw [he.data, he.mrq, he.dataError]
    exact hi.unended
  cto := hcto
  dto := hdto
  unwarned := he.warned.trans hi.unwarned
  sane := he.fault.trans hi.sane
  issued := by
    rw [he.ended, he.mrq]
    exact hi.issued
  sound := by
    rw [he.ended]
    exact hi.sound

theorem Inv.cmdInterrupt (hi : Inv reqs issued h) (status : BitVec 32) :
    Inv reqs issued (dwMciCmdInterrupt h status) :=
  hi.event (.of_flags _ _ _ _ _ _) hi.error (fun h => nomatch h) hi.dto

theorem Inv.cmdErrorInterrupt (hi : Inv reqs issued h) (status : BitVec 32) :
    Inv reqs issued (cmdErrorInterrupt h status) :=
  hi.event (.of_flags _ _ _ _ _ _) hi.error (fun h => nomatch h) hi.dto

theorem Inv.dataErrorInterrupt (hi : Inv reqs issued h) {status : BitVec 32}
    (hstatus : status &&& dataErrorFlags ≠ 0) : Inv reqs issued (dataErrorInterrupt h status) :=
  hi.event (.of_dataStatus _ _ _ fun _ => hstatus) (fun _ => hstatus) hi.cto hi.dto

theorem Inv.dataOverInterrupt (hi : Inv reqs issued h) (status : BitVec 32) :
    Inv reqs issued (dataOverInterrupt h status) :=
  have he := event_dataOverInterrupt h status
  hi.event he (fun hpending => he.failed (hi.error hpending)) hi.cto (fun h => nomatch h)

theorem Inv.dataReadyInterrupt (hi : Inv reqs issued h) (dir : DataDir) (bytes : ℕ)
    (done : Bool) : Inv reqs issued ((dataReadyInterrupt h dir bytes done).getD h) := by
  have he := event_dataReadyInterrupt h dir bytes done
  obtain ⟨sg, xfer, bytesXfered, -, heq⟩ := dataReadyInterrupt_cases h dir bytes done
  rw [heq] at he ⊢
  exact hi.event he hi.error hi.cto hi.dto

theorem Inv.dwMciDmacCompleteDma (hi : Inv reqs issued h) :
    Inv reqs issued (dwMciDmacCompleteDma h) := by
  have he := event_dwMciDmacCompleteDma h
  unfold Tasklet.dwMciDmacCompleteDma at he ⊢
  split_ifs at he ⊢
  · exact hi.event he hi.error hi.cto hi.dto
  · exact hi

theorem Inv.ctoTimer (hi : Inv reqs issued h) (coming : Bool) :
    Inv reqs issued (dwMciCtoTimer { h with ctoTimer := false } coming) := by
  have he := event_dwMciCtoTimer h coming
  unfold dwMciCtoTimer at he ⊢
  split_ifs at he ⊢
  all_goals exact hi.event he hi.error (fun h => nomatch h) hi.dto

theorem Inv.dtoTimer (hi : Inv reqs issued h) (coming : Bool) :
    Inv reqs issued (dwMciDtoTimer { h with dtoTimer := false } coming) := by
  have he := event_dwMciDtoTimer h coming
  unfold dwMciDtoTimer at he ⊢
  split_ifs at he ⊢
  · exact hi.event he hi.error hi.cto (fun h => nomatch h)
  · exact hi.event he (fun _ => (by decide : sdmmcIntDrto &&& dataErrorFlags ≠ 0)) hi.cto
      (fun h => nomatch h)
  · exact hi.event he hi.error hi.cto (fun h => nomatch h)

/-- The timer of the voltage switch must not expire before the one of the command. -/
theorem Inv.cmd11Timer (hi : Inv reqs issued h) (hcto : h.ctoTimer = false) :
    Inv reqs issued (dwMciCmd11Timer { h with cmd11Timer := false }) := by
  have he := event_dwMciCmd11Timer h
  unfold dwMciCmd11Timer at he ⊢
  split_ifs at he ⊢
  · exact hi.event he hi.error (fun h => nomatch hcto.symm.trans h) hi.dto
  · exact hi.event he hi.error hi.cto hi.dto

/-- The clock is set after a voltage switch. -/
theorem Inv.setIos (hi : Inv reqs issued h) (hstate : h.state = .waitingCmd11Done) :
    Inv reqs issued { h with state := .idle } := by
  have hs := hi.staged
  refine ⟨hi.slot, hi.queued, ?_, hi.error, hi.unended, hi.cto, hi.dto, hi.unwarned, hi.sane,
    hi.issued, hi.sound⟩
  unfold Staged at hs ⊢
  dsimp only
  cases hm : h.mrq with
  | some m =>
    rw [hm] at hs
    exact absurd (.inr hstate) hs.1
  | none =>
    rw [hm] at hs
    obtain ⟨-, ⟨st, hst, hstage⟩, hrest⟩ := hs
    refine ⟨.inl rfl, ?_, hrest⟩
    by_cases hpc : h.pc = .off
    · exact ⟨.idle, .inl rfl, stage_of_off _ hpc⟩
    · refine ⟨st, hst, Eq.trans (if_neg hpc) ?_⟩
      exact (stage_of_ne h hpc).symm.trans hstage

/-! ### The request in the hands of the tasklet -/

/-- What holds of a request while the tasklet works on it, between two stages. -/
structure Held (reqs : ℕ → Mrq) (issued : List ℕ) (h : Host) (m : ℕ) : Prop where
  mrq : h.mrq = some m
  slot : h.slotMrq = some m
  queued : h.queued = false
  busy : ¬h.state.Idle
  error : h.pending.dataError = true → Failed h
  unended : h.data = true → h.dataError m ≠ 0
  cto : h.ctoTimer = true → h.pending.cmdComplete = false
  dto : h.dtoTimer = true → h.pending.dataComplete = false
  unwarned : h.warned = false
  sane : h.fault = false
  issued : issued = h.ended.map Completion.mrq ++ [m]
  sound : ∀ c ∈ h.ended, c.Sound reqs

theorem Inv.held (hi : Inv reqs issued h) (hm : h.mrq = some m) : Held reqs issued h m where
  mrq := hm
  slot := hi.slot.trans hm
  queued := hi.queued
  busy := by
    have hs := hi.staged
    rw [Staged, hm] at hs
    exact hs.1
  error := hi.error
  unended hd := hi.unended hd m hm
  cto := hi.cto
  dto := hi.dto
  unwarned := hi.unwarned
  sane := hi.sane
  issued := by rw [hi.issued, hm]; rfl
  sound := hi.sound

/-- Changes of the request, its events and its timers. -/
theorem Held.update (hh : Held reqs issued h m) (hmrq : h'.mrq = h.mrq)
    (hslot : h'.slotMrq = h.slotMrq) (hqueued : h'.queued = h.queued) (hstate : h'.state = h.state)
    (hended : h'.ended = h.ended) (hwarned : h'.warned = h.warned) (hfault : h'.fault = h.fault)
    (herror : h'.pending.dataError = true → Failed h')
    (hunended : h'.data = true → h'.dataError m ≠ 0)
    (hcto : h'.ctoTimer = true → h'.pending.cmdComplete = false)
    (hdto : h'.dtoTimer = true → h'.pending.dataComplete = false) : Held reqs issued h' m where
  mrq := hmrq.trans hh.mrq
  slot := hslot.trans hh.slot
  queued := hqueued.trans hh.queued
  busy := hstate ▸ hh.busy
  error := herror
  unended := hunended
  cto := hcto
  dto := hdto
  unwarned := hwarned.trans hh.unwarned
  sane := hfault.trans hh.sane
  issued := by rw [hended]; exact hh.issued
  sound := by rw [hended]; exact hh.sound

/-- The tasklet goes on in another stage. -/
theorem Held.goto (hh : Held reqs issued h m) (hp : p ≠ .off) (hs : InStage reqs h m p) :
    Inv reqs issued { h with pc := p } where
  slot := hh.slot.trans hh.mrq.symm
  queued := hh.queued
  staged := by
    rw [Staged]
    dsimp only
    rw [hh.mrq, stage_of_ne { h with pc := p, mrq := some m } hp]
    refine ⟨hh.busy, ?_⟩
    cases p with
    | off => exact absurd rfl hp
    | xfer => exact hs
    | checked => exact hs
    | reset => exact hs
    | body state => cases state <;> exact hs
  error := hh.error
  unended hd m' hm' := by
    obtain rfl := Option.some.inj (hh.mrq.symm.trans hm')
    exact hh.unended hd
  cto := hh.cto
  dto := hh.dto
  unwarned := hh.unwarned
  sane := hh.sane
  issued := by
    dsimp only
    rw [hh.mrq]
    exact hh.issued
  sound := hh.sound

/-- **A request ends.** -/
theorem Held.requestEnd (hh : Held reqs issued h m) (hcmd : h.cmd = none) (hdata : h.data = false)
    (hsound : (h.completion m).Sound reqs) :
    Inv reqs issued { dwMciRequestEnd reqs h m with pc := .off } := by
  have heq : dwMciRequestEnd reqs h m = { h with
      warned := h.warned || h.cmd.isSome || h.data, slotMrq := none, mrq := none
      state := if h.state = .sendingCmd11 then .waitingCmd11Done else .idle
      ended := h.ended ++ [h.completion m] } := by
    unfold dwMciRequestEnd
    simp only [hh.queued, Bool.false_eq_true, if_false]
  rw [heq]
  have hidle : DwMciState.Idle (if h.state = .sendingCmd11 then .waitingCmd11Done else .idle) := by
    split_ifs
    · exact .inr rfl
    · exact .inl rfl
  refine ⟨rfl, hh.queued, ⟨hidle, ⟨_, hidle, if_pos rfl⟩, hcmd, hdata⟩, hh.error,
    fun _ _ hm' => (nomatch hm'), hh.cto, hh.dto, ?_, hh.sane, ?_, fun c hc => ?_⟩
  · simp [hh.unwarned, hcmd, hdata]
  · rw [hh.issued, List.map_append, Option.toList_none, List.append_nil]
    rfl
  · rcases List.mem_append.mp hc with hc | hc
    · exact hh.sound c hc
    · rw [List.mem_singleton.mp hc]
      exact hsound

/-- The loop of the tasklet ends in its stage. -/
theorem Inv.leave {st : DwMciState} (hi : Inv reqs issued h) (hpc : h.pc = .body st) :
    Inv reqs issued (leave h st) := by
  have hstage : h.stage = .body st := (stage_of_ne h (by rw [hpc]; exact nofun)).trans hpc
  have hstage' : (Tasklet.leave h st).stage = .body st := if_pos rfl
  have hs := hi.staged
  refine ⟨hi.slot, hi.queued, ?_, hi.error, hi.unended, hi.cto, hi.dto, hi.unwarned, hi.sane,
    hi.issued, hi.sound⟩
  unfold Staged at hs ⊢
  rw [hstage']
  rw [hstage] at hs
  change match h.mrq with
    | none => st.Idle ∧ _ ∧ h.cmd = none ∧ h.data = false
    | some m => ¬st.Idle ∧ InStage reqs (Tasklet.leave h st) m (.body st)
  cases hm : h.mrq with
  | none =>
    rw [hm] at hs
    obtain ⟨-, ⟨st', hidle, heq⟩, hrest⟩ := hs
    obtain rfl := Pc.body.inj heq
    exact ⟨hidle, ⟨_, hidle, rfl⟩, hrest⟩
  | some m =>
    rw [hm] at hs
    obtain ⟨-, hin⟩ := hs
    cases st with
    | idle => exact hin.elim
    | waitingCmd11Done => exact hin.elim
    | sendingCmd => exact ⟨by simp [DwMciState.Idle], rfl, hin.2⟩
    | sendingCmd11 => exact ⟨by simp [DwMciState.Idle], rfl, hin.2⟩
    | sendingData => exact ⟨by simp [DwMciState.Idle], hin⟩
    | dataBusy => exact ⟨by simp [DwMciState.Idle], hin⟩
    | dataError => exact ⟨by simp [DwMciState.Idle], hin⟩
    | sendingStop => exact ⟨by simp [DwMciState.Idle], hin⟩

/-- A stage with a request has it at hand. -/
theorem Inv.exists_mrq (hi : Inv reqs issued h) (hp : h.stage = p)
    (hne : ∀ st : DwMciState, st.Idle → p ≠ .body st) :
    ∃ m, h.mrq = some m ∧ InStage reqs h m p := by
  have hs := hi.staged
  unfold Staged at hs
  cases hm : h.mrq with
  | none =>
    rw [hm] at hs
    obtain ⟨-, ⟨st, hst, heq⟩, -⟩ := hs
    exact absurd (hp.symm.trans heq) (hne st hst)
  | some m =>
    rw [hm] at hs
    exact ⟨m, rfl, hp ▸ hs.2⟩

/-- A stage of the tasklet that is not one of waiting has a request. -/
theorem Inv.exists_mrq_of_pc (hi : Inv reqs issued h) (hpc : h.pc = p)
    (hne : p ≠ .off ∧ p ≠ .body .idle ∧ p ≠ .body .waitingCmd11Done) :
    ∃ m, h.mrq = some m ∧ InStage reqs h m p := by
  refine hi.exists_mrq ((stage_of_ne h (hpc ▸ hne.1)).trans hpc) ?_
  rintro st (rfl | rfl)
  · exact hne.2.1
  · exact hne.2.2

/-! ### Pieces of the tasklet -/

theorem Held.clearCmdComplete (hh : Held reqs issued h m) (hc : h.pending.cmdComplete = true) :
    Held reqs issued (clearCmdComplete h) m := by
  have hoff : h.ctoTimer = false :=
    Bool.eq_false_iff.mpr fun ht => absurd (hc.symm.trans (hh.cto ht)) (by decide)
  refine hh.update rfl rfl rfl rfl rfl ?_ rfl hh.error hh.unended (fun h => nomatch h) hh.dto
  change (h.warned || h.ctoTimer) = h.warned
  rw [hoff, Bool.or_false]

theorem Held.clearDataComplete (hh : Held reqs issued h m) (hc : h.pending.dataComplete = true) :
    Held reqs issued (clearDataComplete h) m := by
  have hoff : h.dtoTimer = false :=
    Bool.eq_false_iff.mpr fun ht => absurd (hc.symm.trans (hh.dto ht)) (by decide)
  refine hh.update rfl rfl rfl rfl rfl ?_ rfl hh.error hh.unended hh.cto (fun h => nomatch h)
  change (h.warned || h.dtoTimer) = h.warned
  rw [hoff, Bool.or_false]

theorem Held.sendStopAbort (hh : Held reqs issued h m) : Held reqs issued (sendStopAbort h) m := by
  have hf := frame_dwMciStartCommand h .stop h.stopCmdr
  obtain ⟨-, hdata, -, herror, -, hwarned, hcto⟩ := dwMciStartCommand_spec h .stop h.stopCmdr
  refine hh.update hf.mrq hf.slot hf.queued hf.state hf.ended hwarned hf.fault ?_ ?_ ?_ ?_
  · unfold Failed Tasklet.sendStopAbort
    rw [hf.pending, hf.dataStatus]
    exact hh.error
  · unfold Tasklet.sendStopAbort
    rw [hdata, herror]
    exact hh.unended
  · intro h'
    unfold Tasklet.sendStopAbort
    rw [hf.pending]
    exact (hcto h').elim hh.cto id
  · unfold Tasklet.sendStopAbort
    rw [hf.dtoTimer, hf.pending]
    exact hh.dto

/-- A data error leads to the stage that waits for the end of the transfer. -/
theorem Held.dataFailed (hh : Held reqs issued h m) (he : h.pending.dataError = true)
    (hdata : h.data = true) (hsome : (reqs m).data.isSome) (hcompleted : h.completed.cmd = true) :
    Inv reqs issued (dataFailed h) := by
  have hfailed : Failed h := hh.error he
  set u : Host := dwMciStopDma { h with pending := { h.pending with dataError := false } } with hu
  have hu' : Held reqs issued u m :=
    hh.update rfl rfl rfl rfl rfl rfl rfl (fun h => nomatch h) hh.unended hh.cto hh.dto
  unfold Tasklet.dataFailed
  dsimp only
  rw [← hu]
  split_ifs with hstop
  · have hf := frame_dwMciStartCommand u .stop u.stopCmdr
    obtain ⟨-, hd, -⟩ := dwMciStartCommand_spec u .stop u.stopCmdr
    refine hu'.sendStopAbort.goto (by decide) ⟨hd.trans hdata, hsome, ?_, ?_⟩
    · exact (congrArg Completed.cmd hf.completed).trans hcompleted
    · unfold Failed Tasklet.sendStopAbort
      rw [hf.dataStatus]
      exact hfailed
  · exact hu'.goto (by decide) ⟨hdata, hsome, hcompleted, hfailed⟩

/-- To wait for the data does not depend on the place of the tasklet. -/
theorem awaitData_pc (h : Host) (p : Pc) (st : DwMciState) :
    Tasklet.awaitData { h with pc := p } st = Tasklet.awaitData h st := by
  unfold Tasklet.awaitData dwMciSetDrto
  split_ifs <;> rfl

/-- Waiting for the data keeps the stage. -/
theorem Inv.awaitData {st : DwMciState} (hi : Inv reqs issued h) (hpc : h.pc = .body st) :
    Inv reqs issued (awaitData h st) := by
  unfold Tasklet.awaitData dwMciSetDrto
  split_ifs with hread hcomplete
  · exact hi.leave hpc
  · have hi' : Inv reqs issued { h with dtoTimer := true } :=
      hi.event (.of_flags _ _ _ _ _ _) hi.error hi.cto (fun _ => Bool.eq_false_iff.mpr hcomplete)
    exact hi'.leave hpc
  · exact hi.leave hpc

/-! ### The tasklet -/

theorem Held.takeCommand (hh : Held reqs issued h m) (hc : h.pending.cmdComplete = true)
    (c : Role) : Held reqs issued (takeCommand reqs h m c) m :=
  (hh.clearCmdComplete hc).update rfl rfl rfl rfl rfl rfl rfl hh.error hh.unended
    (fun h => nomatch h) hh.dto

/-- **A command is complete**: the block count is set, the command failed, or the data follows. -/
theorem Inv.sendingCmdBody {st : DwMciState} (hi : Inv reqs issued h) (hpc : h.pc = .body st)
    (hst : st = .sendingCmd ∨ st = .sendingCmd11) :
    Inv reqs issued (sendingCmdBody reqs h st) := by
  obtain ⟨m, hmrq, hstage⟩ : ∃ m, h.mrq = some m ∧ InStage reqs h m (.body st) :=
    hi.exists_mrq_of_pc hpc (by rcases hst with rfl | rfl <;> decide)
  obtain ⟨c, hcmd, hsbc, hdata⟩ : ∃ c, h.cmd = some c ∧
      (c ≠ .cmd → c = .sbc ∧ h.data = false ∧ h.state = .sendingCmd) ∧
      (c = .cmd → h.data = (reqs m).data.isSome) := by
    rcases hst with rfl | rfl
    · obtain ⟨hstate, ⟨hcmd, hdata⟩ | ⟨hcmd, hdata⟩⟩ := hstage
      · exact ⟨.sbc, hcmd, fun _ => ⟨rfl, hdata, hstate⟩, fun h => nomatch h⟩
      · exact ⟨.cmd, hcmd, fun h => absurd rfl h, fun _ => hdata⟩
    · exact ⟨.cmd, hstage.2.1, fun h => absurd rfl h, fun _ => hstage.2.2⟩
  unfold Tasklet.sendingCmdBody
  by_cases hcomplete : h.pending.cmdComplete = false
  · rw [if_pos hcomplete]
    exact hi.leave hpc
  rw [if_neg hcomplete, hmrq, hcmd]
  dsimp only
  have hheld : Held reqs issued (Tasklet.takeCommand reqs h m c) m :=
    (hi.held hmrq).takeCommand (by simpa using hcomplete) c
  have hcmd' : (Tasklet.takeCommand reqs h m c).cmd = none := rfl
  have hdata' : (Tasklet.takeCommand reqs h m c).data = h.data := rfl
  have hstate' : (Tasklet.takeCommand reqs h m c).state = h.state := rfl
  have hcompleted : (Tasklet.takeCommand reqs h m c).completed.cmd = true := rfl
  generalize Tasklet.takeCommand reqs h m c = u at hheld hcmd' hdata' hstate' hcompleted ⊢
  by_cases hccmd : c = .cmd
  · -- the command of the request
    subst hccmd
    have hd := hdata'.trans (hdata rfl)
    rw [if_neg (fun h => nomatch h.1), show cmdData reqs m .cmd = (reqs m).data from if_pos rfl]
    cases hreq : (reqs m).data with
    | none =>
      rw [hreq] at hd
      rw [if_neg (fun h => nomatch h.1), if_pos (.inl rfl)]
      refine hheld.requestEnd hcmd' hd fun _ _ _ => ⟨hcompleted, fun d hd => ?_⟩
      exact nomatch hreq.symm.trans hd
    | some data =>
      have hsome : (reqs m).data.isSome := by rw [hreq]; rfl
      rw [hreq] at hd
      by_cases herr : u.cmdError m .cmd = 0
      · rw [if_neg (fun h => h.2 herr),
          if_neg (fun h => h.elim (fun h => nomatch h) fun h => h herr)]
        exact hheld.goto (by decide) ⟨hd, hsome, hcompleted, hcmd'⟩
      · rw [if_pos ⟨rfl, herr⟩]
        split_ifs
        · exact hheld.goto (by decide) ⟨hd, hsome, hcompleted, hcmd'⟩
        · have hstop : Held reqs issued (dwMciStopDma u) m :=
            hheld.update rfl rfl rfl rfl rfl rfl rfl hheld.error hheld.unended hheld.cto hheld.dto
          obtain ⟨-, -, he, -⟩ := dwMciStartCommand_spec (dwMciStopDma u) .stop u.stopCmdr
          refine hstop.sendStopAbort.goto (by decide) ⟨hsome, .inl ?_⟩
          exact fun h => herr ((congrFun (congrFun he m) .cmd).symm.trans h)
  · -- the command that sets the block count
    obtain ⟨rfl, hnodata, hstate⟩ := hsbc hccmd
    have hd := hdata'.trans hnodata
    have hno : cmdData reqs m .sbc = none := if_neg (by decide)
    by_cases herr : u.cmdError m .sbc = 0
    · rw [if_pos ⟨rfl, herr⟩]
      obtain ⟨hs, -⟩ := startCmd_started reqs hheld.slot hd (hstate'.trans hstate) .cmd
      have hs' : Started reqs u m .cmd { startCmd reqs u .cmd with pc := .off } :=
        ⟨hs.mrq, hs.slot, hs.queued, hs.cmd, hs.data, hs.unended, hs.state, hs.pending, hs.ended,
          hs.warned, hs.fault⟩
      exact hs'.inv (by decide) rfl hheld.queued hheld.unwarned hheld.sane hheld.issued hheld.sound
    · rw [if_neg (fun h => herr h.2), hno, if_neg (fun h => nomatch h.1), if_pos (.inl rfl)]
      exact hheld.requestEnd hcmd' hd fun h _ _ => absurd h herr

theorem Inv.sendingDataBody (hi : Inv reqs issued h) (hpc : h.pc = .body .sendingData) :
    Inv reqs issued (sendingDataBody h) := by
  obtain ⟨m, hmrq, hdata, hsome, hcompleted, hcmd⟩ := hi.exists_mrq_of_pc hpc (by decide)
  have hheld := hi.held hmrq
  unfold Tasklet.sendingDataBody
  split_ifs with herr
  · exact hheld.dataFailed herr hdata hsome hcompleted
  · exact hheld.goto (by decide) ⟨hdata, hsome, hcompleted, hcmd⟩

theorem Inv.xferBody (hi : Inv reqs issued h) (hpc : h.pc = .xfer) :
    Inv reqs issued (xferBody h) := by
  obtain ⟨m, hmrq, hdata, hsome, hcompleted, hcmd⟩ := hi.exists_mrq_of_pc hpc (by decide)
  have hheld := hi.held hmrq
  unfold Tasklet.xferBody
  split_ifs with hxfer
  · -- the state that is written is the one before the first test
    have hstage : Inv reqs issued { h with pc := .body .sendingData } :=
      hheld.goto (by decide) ⟨hdata, hsome, hcompleted, hcmd⟩
    rw [← awaitData_pc h (.body .sendingData)]
    exact hstage.awaitData rfl
  · set u : Host := { h with
      pending := { h.pending with xferComplete := false }
      completed := { h.completed with xfer := true } } with hu
    have hheld' : Held reqs issued u m :=
      hheld.update rfl rfl rfl rfl rfl rfl rfl hheld.error hheld.unended hheld.cto hheld.dto
    exact hheld'.goto (p := .checked) (by decide) ⟨hdata, hsome, hcompleted, hcmd, rfl⟩

theorem Inv.checkedBody (hi : Inv reqs issued h) (hpc : h.pc = .checked) :
    Inv reqs issued (checkedBody h) := by
  obtain ⟨m, hmrq, hdata, hsome, hcompleted, hcmd, hxfer⟩ := hi.exists_mrq_of_pc hpc (by decide)
  have hheld := hi.held hmrq
  unfold Tasklet.checkedBody
  split_ifs with herr
  · exact hheld.dataFailed herr hdata hsome hcompleted
  · exact hheld.goto (by decide) ⟨hdata, hsome, hcompleted, .inr ⟨hcmd, hxfer⟩⟩

theorem Inv.dataErrorBody (hi : Inv reqs issued h) (hpc : h.pc = .body .dataError) :
    Inv reqs issued (dataErrorBody h) := by
  obtain ⟨m, hmrq, hdata, hsome, hcompleted, hfailed⟩ := hi.exists_mrq_of_pc hpc (by decide)
  have hheld := hi.held hmrq
  unfold Tasklet.dataErrorBody
  split_ifs with hxfer
  · exact hi.leave hpc
  · have hheld' :
        Held reqs issued { h with pending := { h.pending with xferComplete := false } } m :=
      hheld.update rfl rfl rfl rfl rfl rfl rfl hheld.error hheld.unended hheld.cto hheld.dto
    exact hheld'.goto (by decide) ⟨hdata, hsome, hcompleted, .inl hfailed⟩

theorem dataStatusError_ne {status : BitVec 32} {dirStatus : Option DataDir} {error : ℤ}
    (h : dataStatusError status dirStatus = some error) : error ≠ 0 := by
  unfold dataStatusError at h
  split_ifs at h
  · obtain rfl := Option.some.inj h
    decide
  · obtain rfl := Option.some.inj h
    decide
  · split at h
    · obtain rfl := Option.some.inj h
      decide
    · obtain rfl := Option.some.inj h
      decide
    · exact nomatch h
  · obtain rfl := Option.some.inj h
    decide

/-- An error in the status gives the data an error, whatever the direction; without one all the data
was moved. -/
theorem dwMciDataComplete_spec (h : Host) (m : ℕ) (data : Data) (hstart : h.dataError m ≠ 0) :
    (Failed h → (dwMciDataComplete h m data).dataError m ≠ 0) ∧
      ((dwMciDataComplete h m data).dataError m = 0 →
        (dwMciDataComplete h m data).bytesXfered m = data.size) := by
  unfold dwMciDataComplete
  by_cases hfailed : h.dataStatus &&& dataErrorFlags ≠ 0
  · rw [if_pos hfailed]
    have herror : (dataStatusError h.dataStatus h.dirStatus).getD (h.dataError m) ≠ 0 := by
      cases herr : dataStatusError h.dataStatus h.dirStatus with
      | none => exact hstart
      | some error => exact dataStatusError_ne herr
    simp only [Host.setDataError, Function.update_self]
    exact ⟨fun _ => herror, fun h0 => absurd h0 herror⟩
  · rw [if_neg hfailed]
    refine ⟨fun hf => absurd hf hfailed, fun _ => ?_⟩
    simp only [Function.update_self]

/-- What taking the data off the host leaves alone. -/
theorem takeData_frame (h : Host) (m : ℕ) (data : Data) :
    Frame { clearDataComplete h with completed := { h.completed with data := true } }
        (takeData h m data) ∧
      (takeData h m data).cmd = h.cmd ∧ (takeData h m data).data = false ∧
      (takeData h m data).ctoTimer = h.ctoTimer ∧
      (takeData h m data).warned = (clearDataComplete h).warned := by
  unfold takeData dwMciDataComplete
  dsimp only
  split
  · exact ⟨⟨rfl, rfl, rfl, rfl, rfl, rfl, rfl, rfl, rfl, rfl, rfl⟩, rfl, rfl, rfl, rfl⟩
  · exact ⟨⟨rfl, rfl, rfl, rfl, rfl, rfl, rfl, rfl, rfl, rfl, rfl⟩, rfl, rfl, rfl, rfl⟩

theorem Held.takeData (hh : Held reqs issued h m) (hc : h.pending.dataComplete = true)
    (data : Data) : Held reqs issued (takeData h m data) m := by
  obtain ⟨hf, -, hdata, hcto, hwarned⟩ := takeData_frame h m data
  have hclear := hh.clearDataComplete hc
  refine hclear.update hf.mrq hf.slot hf.queued hf.state hf.ended hwarned hf.fault ?_
    (fun hd => nomatch hdata.symm.trans hd) ?_ ?_
  · unfold Failed
    rw [hf.pending, hf.dataStatus]
    exact hclear.error
  · rw [hcto, hf.pending]
    exact hclear.cto
  · rw [hf.dtoTimer, hf.pending]
    exact hclear.dto

/-- **The transfer is complete**: the request ends, or the command that stops it is waited for. -/
theorem Inv.dataBusyBody (hi : Inv reqs issued h) (hpc : h.pc = .body .dataBusy) :
    Inv reqs issued (dataBusyBody reqs h) := by
  obtain ⟨m, hmrq, hdata, hsome, hcompleted, hlast⟩ := hi.exists_mrq_of_pc hpc (by decide)
  obtain ⟨data, hreq⟩ := Option.isSome_iff_exists.mp hsome
  unfold Tasklet.dataBusyBody
  by_cases hc : h.pending.dataComplete = false
  · rw [if_pos hc]
    exact hi.awaitData hpc
  rw [if_neg hc, hmrq, hdata, Option.bind_some, hreq]
  dsimp only
  have hheld : Held reqs issued (Tasklet.takeData h m data) m :=
    (hi.held hmrq).takeData (by simpa using hc) data
  obtain ⟨hf, hcmd, hdata', -, -⟩ := takeData_frame h m data
  have hcompleted' : (Tasklet.takeData h m data).completed =
      ⟨h.completed.cmd, h.completed.xfer, true⟩ := hf.completed
  have hspec : (Failed h → (Tasklet.takeData h m data).dataError m ≠ 0) ∧
      ((Tasklet.takeData h m data).dataError m = 0 →
        (Tasklet.takeData h m data).bytesXfered m = data.size) :=
    dwMciDataComplete_spec { Tasklet.clearDataComplete h with
      data := false, completed := { h.completed with data := true } } m data
      (hi.unended hdata m hmrq)
  generalize Tasklet.takeData h m data = u at hheld hcmd hdata' hcompleted' hspec ⊢
  obtain ⟨hfail, hbytes⟩ := hspec
  by_cases herr : u.dataError m = 0
  · -- there was no error, so the command and the transfer are complete
    obtain ⟨hcmd₀, hxfer⟩ := hlast.resolve_left fun hf => hfail hf herr
    have hall : u.completed = ⟨true, true, true⟩ := by
      rw [hcompleted', hcompleted, hxfer]
    have hmoved : ∀ d ∈ (reqs m).data, u.bytesXfered m = d.size := by
      intro d hd
      obtain rfl := Option.some.inj (hreq.symm.trans hd)
      exact hbytes herr
    rw [if_pos herr]
    split_ifs with hends hsbc
    · have hheld' : Held reqs issued (u.setCmdError m .stop 0) m :=
        hheld.update rfl rfl rfl rfl rfl rfl rfl hheld.error hheld.unended hheld.cto hheld.dto
      refine hheld'.requestEnd (hcmd.trans hcmd₀) hdata' fun _ _ _ => ⟨?_, fun d hd => ?_⟩
      · exact congrArg Completed.cmd hall
      · exact ⟨hall, hmoved d hd⟩
    · refine hheld.requestEnd (hcmd.trans hcmd₀) hdata' fun _ _ _ => ⟨?_, fun d hd => ?_⟩
      · exact congrArg Completed.cmd hall
      · exact ⟨hall, hmoved d hd⟩
    · have hf' := frame_dwMciStartCommand u .stop u.stopCmdr
      obtain ⟨-, hd, -, -, hb, -, -⟩ := dwMciStartCommand_spec u .stop u.stopCmdr
      refine hheld.sendStopAbort.goto (by decide) ⟨hsome, .inr (.inr ⟨hd.trans hdata', ?_, ?_⟩)⟩
      · exact hf'.completed.trans hall
      · intro d hd
        exact (congrFun hb m).trans (hmoved d hd)
  · rw [if_neg herr]
    exact hheld.goto (by decide) ⟨hdata', hsome, herr⟩

/-- **The controller is reset**: the request ends, or the command that stops it is waited for. -/
theorem Inv.resetBody (hi : Inv reqs issued h) (hpc : h.pc = .reset) :
    Inv reqs issued (resetBody reqs h) := by
  obtain ⟨m, hmrq, hdata, hsome, herr⟩ := hi.exists_mrq_of_pc hpc (by decide)
  have hheld := hi.held hmrq
  have hreset : Held reqs issued (dwMciReset h) m :=
    hheld.update rfl rfl rfl rfl rfl rfl rfl hheld.error hheld.unended hheld.cto hheld.dto
  unfold Tasklet.resetBody
  have hmrq' : (dwMciReset h).mrq = some m := hmrq
  dsimp only
  split_ifs with hcc
  · rw [hmrq']
    have hheld' : Held reqs issued { dwMciReset h with cmd := none } m :=
      hreset.update rfl rfl rfl rfl rfl rfl rfl hreset.error hreset.unended hreset.cto hreset.dto
    exact hheld'.requestEnd rfl hdata fun _ _ h0 => absurd h0 herr
  · exact hreset.goto (by decide) ⟨hsome, .inr (.inl herr)⟩

theorem resetIf_cases (h : Host) (p : Prop) [Decidable p] :
    ∃ sg, (if p then dwMciReset h else h) = { h with sg } := by
  split_ifs
  · exact ⟨false, rfl⟩
  · exact ⟨h.sg, rfl⟩

/-- **The command that stops the transfer is complete**, and the request ends. -/
theorem Inv.sendingStopBody (hi : Inv reqs issued h) (hpc : h.pc = .body .sendingStop) :
    Inv reqs issued (sendingStopBody reqs h) := by
  obtain ⟨m, hmrq, hsome, hknown⟩ := hi.exists_mrq_of_pc hpc (by decide)
  unfold Tasklet.sendingStopBody
  by_cases hc : h.pending.cmdComplete = false
  · rw [if_pos hc]
    exact hi.leave hpc
  rw [if_neg hc, hmrq]
  dsimp only
  obtain ⟨sg, hreset⟩ := resetIf_cases (Tasklet.clearCmdComplete h)
    ((Tasklet.clearCmdComplete h).cmdError m .cmd ≠ 0 ∧ (reqs m).data.isSome)
  rw [hreset]
  have hclear := (hi.held hmrq).clearCmdComplete (by simpa using hc)
  have hheld : Held reqs issued
      { Tasklet.clearCmdComplete h with sg, cmd := none, data := false } m :=
    hclear.update rfl rfl rfl rfl rfl rfl rfl hclear.error (fun h => nomatch h) hclear.cto
      hclear.dto
  -- the error of the command itself stays as it is
  have hsound : ∀ u : Host, u.cmdError m .cmd = h.cmdError m .cmd → u.dataError = h.dataError →
      u.bytesXfered = h.bytesXfered → u.completed = h.completed → (u.completion m).Sound reqs := by
    intro u hcmd hdata hbytes hcompleted _ hcmd₀ hdata₀
    rcases hknown with hne | hne | ⟨-, hall, hmoved⟩
    · exact absurd (hcmd.symm.trans hcmd₀) hne
    · exact absurd ((congrFun hdata m).symm.trans hdata₀) hne
    · refine ⟨congrArg Completed.cmd (hcompleted.trans hall), fun d hd => ?_⟩
      refine ⟨hcompleted.trans hall, ?_⟩
      exact (congrFun hbytes m).trans (hmoved d hd)
  split_ifs with hstop
  · have hheld' : Held reqs issued (dwMciCommandComplete reqs
        { Tasklet.clearCmdComplete h with sg, cmd := none, data := false } m .stop) m :=
      hheld.update rfl rfl rfl rfl rfl rfl rfl hheld.error (fun h => nomatch h) hheld.cto hheld.dto
    refine hheld'.requestEnd rfl rfl (hsound _ ?_ rfl rfl rfl)
    simp [dwMciCommandComplete, Host.setCmdError, Tasklet.clearCmdComplete]
  · have hheld' : Held reqs issued { Tasklet.clearCmdComplete h with
        sg, cmd := none, data := false, cmdStatus := 0 } m :=
      hheld.update rfl rfl rfl rfl rfl rfl rfl hheld.error (fun h => nomatch h) hheld.cto hheld.dto
    exact hheld'.requestEnd rfl rfl (hsound _ rfl rfl rfl rfl)

/-- The tasklet begins where it left. -/
theorem Inv.begin (hi : Inv reqs issued h) (hpc : h.pc = .off) :
    Inv reqs issued { h with pc := .body h.state } := by
  have hs := hi.staged
  refine ⟨hi.slot, hi.queued, ?_, hi.error, hi.unended, hi.cto, hi.dto, hi.unwarned, hi.sane,
    hi.issued, hi.sound⟩
  have hstage : ({ h with pc := .body h.state } : Host).stage = h.stage :=
    (stage_of_ne { h with pc := .body h.state } (fun h => nomatch h)).trans
      (stage_of_off h hpc).symm
  unfold Staged at hs ⊢
  rw [hstage]
  dsimp only
  cases hm : h.mrq with
  | none =>
    rw [hm] at hs
    exact hs
  | some m =>
    rw [hm] at hs
    refine ⟨hs.1, ?_⟩
    generalize h.stage = p at hs ⊢
    cases p with
    | off => exact hs.2
    | xfer => exact hs.2
    | checked => exact hs.2
    | reset => exact hs.2
    | body state => cases state <;> exact hs.2

/-- **One test of the events** keeps the invariant. -/
theorem Inv.taskletStep (hi : Inv reqs issued h) : Inv reqs issued (taskletStep reqs h) := by
  unfold Tasklet.taskletStep
  split
  next hpc => exact hi.begin hpc
  next hpc => exact hi.xferBody hpc
  next hpc => exact hi.checkedBody hpc
  next hpc => exact hi.resetBody hpc
  next hpc => exact hi.leave hpc
  next hpc => exact hi.leave hpc
  next hpc => exact hi.sendingCmdBody hpc (.inl rfl)
  next hpc => exact hi.sendingCmdBody hpc (.inr rfl)
  next hpc => exact hi.sendingDataBody hpc
  next hpc => exact hi.dataBusyBody hpc
  next hpc => exact hi.sendingStopBody hpc
  next hpc => exact hi.dataErrorBody hpc

/-! ### Every run -/

/-- What the layer above ensures, which issues a request only to a host that has none, and the
lengths of the timers, by which that of the voltage switch does not expire while that of the command
is armed. -/
def InOrder (s : State) : Action → Prop
  | .request _ _ => s.host.slotMrq = none
  | .cmd11Timer => s.host.ctoTimer = false
  | _ => True

instance (s : State) : (a : Action) → Decidable (InOrder s a)
  | .request _ _ => inferInstanceAs (Decidable (s.host.slotMrq = none))
  | .cmd11Timer => inferInstanceAs (Decidable (s.host.ctoTimer = false))
  | .tasklet | .voltSwitch _ | .cmdError _ | .dataError _ | .dataOver _ | .cmdDone _
  | .dataReady _ _ _ | .dmaComplete | .ctoTimer _ | .dtoTimer _ | .setIos _ => isTrue trivial

theorem inv_init : Inv reqs [] Host.init where
  slot := rfl
  queued := rfl
  staged := ⟨.inl rfl, ⟨.idle, .inl rfl, rfl⟩, rfl, rfl⟩
  error h := nomatch h
  unended h := nomatch h
  cto h := nomatch h
  dto h := nomatch h
  unwarned := rfl
  sane := rfl
  issued := rfl
  sound _ h := nomatch h

/-- **The step lemma.** Whatever comes, and whenever it comes, keeps the invariant. -/
theorem inv_next {s s' : State} {a : Action} (hi : Inv reqs s.issued s.host) (ha : InOrder s a)
    (hnext : (taskletSystem reqs).next s a = some s') : Inv reqs s'.issued s'.host := by
  cases a with
  | request m present =>
    obtain ⟨hpc, rfl⟩ := Option.ite_some_none_eq_some.mp hnext
    exact hi.request ha present hpc
  | tasklet =>
    obtain rfl := Option.some.inj hnext
    exact hi.taskletStep
  | voltSwitch status =>
    obtain ⟨-, rfl⟩ := Option.ite_some_none_eq_some.mp hnext
    have hirq := hi.cmdInterrupt status
    exact hirq.event (.of_flags _ _ _ _ _ _) hirq.error hirq.cto hirq.dto
  | cmdError status =>
    obtain ⟨-, rfl⟩ := Option.ite_some_none_eq_some.mp hnext
    exact hi.cmdErrorInterrupt status
  | dataError status =>
    obtain ⟨hstatus, rfl⟩ := Option.ite_some_none_eq_some.mp hnext
    exact hi.dataErrorInterrupt hstatus
  | dataOver status =>
    obtain rfl := Option.some.inj hnext
    exact hi.dataOverInterrupt status
  | cmdDone status =>
    obtain rfl := Option.some.inj hnext
    exact hi.cmdInterrupt status
  | dataReady dir bytes done =>
    obtain rfl := Option.some.inj hnext
    exact hi.dataReadyInterrupt dir bytes done
  | dmaComplete =>
    obtain rfl := Option.some.inj hnext
    exact hi.dwMciDmacCompleteDma
  | ctoTimer coming =>
    obtain ⟨-, rfl⟩ := Option.ite_some_none_eq_some.mp hnext
    exact hi.ctoTimer coming
  | dtoTimer coming =>
    obtain ⟨-, rfl⟩ := Option.ite_some_none_eq_some.mp hnext
    exact hi.dtoTimer coming
  | cmd11Timer =>
    obtain ⟨-, rfl⟩ := Option.ite_some_none_eq_some.mp hnext
    exact hi.cmd11Timer ha
  | setIos clock =>
    change (if clock = true ∧ s.host.state = .waitingCmd11Done then
      some { s with host := { s.host with state := .idle } } else some s) = some s' at hnext
    split_ifs at hnext with hc
    · obtain rfl := Option.some.inj hnext
      exact hi.setIos hc.2
    · obtain rfl := Option.some.inj hnext
      exact hi

theorem inv_of_run {as : List Action} {s : State} (hrun : (taskletSystem reqs).run as = some s)
    (horder : (taskletSystem reqs).Obeys InOrder (taskletSystem reqs).init as) :
    Inv reqs s.issued s.host :=
  (taskletSystem reqs).invariant_of_obeys (I := fun s => Inv reqs s.issued s.host)
    (fun _ _ _ hi ha hnext => inv_next hi ha hnext) inv_init horder hrun

/-- An interrupt moves data only where the data is there. -/
def FindsData (s : State) : Action → Prop
  | .dataReady dir bytes _ =>
    s.host.dirStatus = some dir → s.host.sg = true → bytes ≠ 0 → s.host.data = true
  | _ => True

instance (s : State) : (a : Action) → Decidable (FindsData s a)
  | .dataReady dir bytes _ =>
    inferInstanceAs (Decidable (s.host.dirStatus = some dir → s.host.sg = true → bytes ≠ 0 →
      s.host.data = true))
  | .request _ _ | .tasklet | .voltSwitch _ | .cmdError _ | .dataError _ | .dataOver _
  | .cmdDone _ | .dmaComplete | .ctoTimer _ | .dtoTimer _ | .cmd11Timer | .setIos _ =>
    isTrue trivial

/-- Data is on the host of a request only. -/
theorem Inv.exists_mrq_of_data (hi : Inv reqs issued h) (hdata : h.data = true) :
    ∃ m, h.mrq = some m := by
  cases hmrq : h.mrq with
  | some m => exact ⟨m, rfl⟩
  | none =>
    have hs := hi.staged
    rw [Staged, hmrq] at hs
    exact absurd (hdata.symm.trans hs.2.2.2) (by decide)

theorem Inv.dataReadyInterrupt_isNone_iff (hi : Inv reqs issued h) (dir : DataDir) (bytes : ℕ)
    (done : Bool) :
    (Tasklet.dataReadyInterrupt h dir bytes done).isNone = false ↔
      (h.dirStatus = some dir → h.sg = true → bytes ≠ 0 → h.data = true) := by
  unfold Tasklet.dataReadyInterrupt dwMciDataPio
  split_ifs with hready hbytes
  · exact iff_of_true rfl fun _ _ h => absurd hbytes h
  · cases hdata : h.data with
    | true =>
      obtain ⟨m, hmrq⟩ := hi.exists_mrq_of_data hdata
      rw [hmrq]
      exact iff_of_true rfl fun _ _ _ => rfl
    | false =>
      refine iff_of_false ?_ fun h => Bool.false_ne_true (h hready.1 hready.2 hbytes)
      split
      next heq => exact nomatch heq
      next => exact nofun
  · exact iff_of_true rfl fun hdir hsg _ => absurd ⟨hdir, hsg⟩ hready

/-- A step follows no null pointer in an interrupt exactly if the interrupt finds the data that it
moves. -/
theorem irqFault_next_iff {s s' : State} {a : Action} (hi : Inv reqs s.issued s.host)
    (hs : s.irqFault = false) (hnext : (taskletSystem reqs).next s a = some s') :
    s'.irqFault = false ↔ FindsData s a := by
  cases a with
  | dataReady dir bytes done =>
    obtain rfl := Option.some.inj hnext
    refine Iff.trans ?_ (hi.dataReadyInterrupt_isNone_iff dir bytes done)
    change (s.irqFault || _) = false ↔ _
    rw [hs, Bool.false_or]
  | request m present =>
    obtain ⟨-, rfl⟩ := Option.ite_some_none_eq_some.mp hnext
    exact iff_of_true hs trivial
  | tasklet =>
    obtain rfl := Option.some.inj hnext
    exact iff_of_true hs trivial
  | voltSwitch status =>
    obtain ⟨-, rfl⟩ := Option.ite_some_none_eq_some.mp hnext
    exact iff_of_true hs trivial
  | cmdError status =>
    obtain ⟨-, rfl⟩ := Option.ite_some_none_eq_some.mp hnext
    exact iff_of_true hs trivial
  | dataError status =>
    obtain ⟨-, rfl⟩ := Option.ite_some_none_eq_some.mp hnext
    exact iff_of_true hs trivial
  | dataOver status =>
    obtain rfl := Option.some.inj hnext
    exact iff_of_true hs trivial
  | cmdDone status =>
    obtain rfl := Option.some.inj hnext
    exact iff_of_true hs trivial
  | dmaComplete =>
    obtain rfl := Option.some.inj hnext
    exact iff_of_true hs trivial
  | ctoTimer coming =>
    obtain ⟨-, rfl⟩ := Option.ite_some_none_eq_some.mp hnext
    exact iff_of_true hs trivial
  | dtoTimer coming =>
    obtain ⟨-, rfl⟩ := Option.ite_some_none_eq_some.mp hnext
    exact iff_of_true hs trivial
  | cmd11Timer =>
    obtain ⟨-, rfl⟩ := Option.ite_some_none_eq_some.mp hnext
    exact iff_of_true hs trivial
  | setIos clock =>
    change (if clock = true ∧ s.host.state = .waitingCmd11Done then
      some { s with host := { s.host with state := .idle } } else some s) = some s' at hnext
    split_ifs at hnext <;> obtain rfl := Option.some.inj hnext <;> exact iff_of_true hs trivial

/-- **Where the requests are.** In every run the requests are given back in the order in which they
were issued, each of them once, and all but the one that the host has, if it has one. No warning is
met, and the tasklet follows no null pointer. A host without a request has no command and no data,
and takes a new request as soon as its tasklet ends. No interrupt follows a null pointer exactly if
none finds the scatter list without the data: the tasklet takes the data off the host before it
resets the controller. -/
theorem requests_given_back {as : List Action} {s : State}
    (hrun : (taskletSystem reqs).run as = some s)
    (horder : (taskletSystem reqs).Obeys InOrder (taskletSystem reqs).init as) :
    (s.issued = s.host.ended.map Completion.mrq ++ s.host.mrq.toList ∧
      s.host.warned = false ∧ s.host.fault = false ∧ s.host.queued = false ∧
      s.host.slotMrq = s.host.mrq ∧
      (s.host.mrq = none → s.host.state.Idle ∧ s.host.cmd = none ∧ s.host.data = false)) ∧
    ((taskletSystem reqs).Always (fun s => s.irqFault = false) (taskletSystem reqs).init as ↔
      (taskletSystem reqs).Obeys FindsData (taskletSystem reqs).init as) := by
  have hi := inv_of_run hrun horder
  refine ⟨⟨hi.issued, hi.unwarned, hi.sane, hi.queued, hi.slot, fun hmrq => ?_⟩, ?_⟩
  · have hs := hi.staged
    rw [Staged, hmrq] at hs
    exact ⟨hs.1, hs.2.2⟩
  · exact (taskletSystem reqs).always_iff_obeys_of_obeys (S := fun s => Inv reqs s.issued s.host)
      (I := fun s => s.irqFault = false) (fun _ _ _ hi _ ha hnext => inv_next hi ha hnext)
      (fun _ _ _ hi hs _ hnext => irqFault_next_iff hi hs hnext) inv_init rfl horder hrun

/-- **What a request says.** In every run, a request that is given back without an error had its
command completed, and if it has data, then the data was moved and the transfer was completed, and
it says the size of the data. -/
theorem given_back_sound {as : List Action} {s : State}
    (hrun : (taskletSystem reqs).run as = some s)
    (horder : (taskletSystem reqs).Obeys InOrder (taskletSystem reqs).init as)
    {c : Completion} (hc : c ∈ s.host.ended) (hsbc : c.cmdError .sbc = 0)
    (hcmd : c.cmdError .cmd = 0) (hdata : c.dataError = 0) :
    c.completed.cmd = true ∧ ∀ d ∈ (reqs c.mrq).data,
      c.completed = ⟨true, true, true⟩ ∧ c.bytesXfered = d.size :=
  (inv_of_run hrun horder).sound c hc hsbc hcmd hdata

/-! ### The loop of the tasklet -/

/-- How many tests of the events may follow. -/
def Pc.rank : Pc → ℕ
  | .off => 0
  | .body .idle | .body .waitingCmd11Done | .body .sendingStop => 1
  | .reset => 2
  | .body .dataBusy => 3
  | .body .dataError => 4
  | .checked => 5
  | .xfer => 6
  | .body .sendingData => 7
  | .body .sendingCmd | .body .sendingCmd11 => 8

theorem Pc.rank_le (p : Pc) : p.rank ≤ 8 := by
  cases p with
  | off => decide
  | xfer => decide
  | checked => decide
  | reset => decide
  | body state => cases state <;> decide

theorem Pc.rank_eq_zero {p : Pc} (hp : p.rank = 0) : p = .off := by
  cases p with
  | off => rfl
  | xfer => exact nomatch hp
  | checked => exact nomatch hp
  | reset => exact nomatch hp
  | body state => cases state <;> exact nomatch hp

@[simp] theorem pc_leave (h : Host) (state : DwMciState) : (leave h state).pc = .off := rfl

@[simp] theorem pc_crash (h : Host) : (crash h).pc = .off := rfl

@[simp] theorem pc_awaitData (h : Host) (state : DwMciState) : (awaitData h state).pc = .off := rfl

@[simp] theorem pc_dataFailed (h : Host) : (dataFailed h).pc = .body .dataError := rfl

theorem rank_sendingCmdBody (reqs : ℕ → Mrq) (h : Host) (state : DwMciState) :
    (sendingCmdBody reqs h state).pc.rank ≤ 7 := by
  unfold sendingCmdBody
  split_ifs
  · exact Nat.zero_le 7
  · split
    · dsimp only
      split_ifs <;> simp [Pc.rank]
    · exact Nat.zero_le 7

theorem rank_dataBusyBody (reqs : ℕ → Mrq) (h : Host) : (dataBusyBody reqs h).pc.rank ≤ 2 := by
  unfold dataBusyBody
  split_ifs
  · exact Nat.zero_le 2
  · split
    · dsimp only
      split_ifs <;> simp [Pc.rank]
    · exact Nat.zero_le 2

theorem rank_resetBody (reqs : ℕ → Mrq) (h : Host) : (resetBody reqs h).pc.rank ≤ 1 := by
  unfold resetBody
  dsimp only
  split_ifs
  · split <;> exact Nat.zero_le 1
  · exact le_rfl

theorem pc_sendingStopBody (reqs : ℕ → Mrq) (h : Host) : (sendingStopBody reqs h).pc = .off := by
  unfold sendingStopBody
  split_ifs
  · rfl
  · split <;> rfl

/-- Each test of the events brings the end of the loop nearer. -/
theorem rank_taskletStep (hpc : h.pc ≠ .off) : (taskletStep reqs h).pc.rank < h.pc.rank := by
  unfold taskletStep
  split
  next hp => exact absurd hp hpc
  next hp =>
    rw [hp, xferBody]
    split_ifs <;> simp [Pc.rank]
  next hp =>
    rw [hp, checkedBody]
    split_ifs <;> simp [Pc.rank]
  next hp =>
    rw [hp]
    exact Nat.lt_succ_of_le (rank_resetBody reqs h)
  next hp => simp [hp, Pc.rank]
  next hp => simp [hp, Pc.rank]
  next hp =>
    rw [hp]
    exact Nat.lt_succ_of_le (rank_sendingCmdBody reqs h _)
  next hp =>
    rw [hp]
    exact Nat.lt_succ_of_le (rank_sendingCmdBody reqs h _)
  next hp =>
    rw [hp, sendingDataBody]
    split_ifs <;> simp [Pc.rank]
  next hp =>
    rw [hp]
    exact Nat.lt_succ_of_le (rank_dataBusyBody reqs h)
  next hp => simp [hp, pc_sendingStopBody, Pc.rank]
  next hp =>
    rw [hp, dataErrorBody]
    split_ifs <;> simp [Pc.rank]

/-- Nothing but the tasklet itself moves it. -/
theorem pc_next {s s' : State} {a : Action} (hpc : s.host.pc ≠ .off) (ha : a ≠ .tasklet)
    (hnext : (taskletSystem reqs).next s a = some s') : s'.host.pc = s.host.pc := by
  have hraised : a.Raises → s'.host.pc = s.host.pc := fun hraises => (event_next hraises hnext).pc
  cases a with
  | request m present =>
    obtain ⟨hoff, rfl⟩ := Option.ite_some_none_eq_some.mp hnext
    obtain rfl := hoff.resolve_right hpc
    rfl
  | tasklet => exact absurd rfl ha
  | setIos clock =>
    change (if clock = true ∧ s.host.state = .waitingCmd11Done then
      some { s with host := { s.host with state := .idle } } else some s) = some s' at hnext
    split_ifs at hnext <;> obtain rfl := Option.some.inj hnext <;> rfl
  | voltSwitch => exact hraised trivial
  | cmdError => exact hraised trivial
  | dataError => exact hraised trivial
  | dataOver => exact hraised trivial
  | cmdDone => exact hraised trivial
  | dataReady => exact hraised trivial
  | dmaComplete => exact hraised trivial
  | ctoTimer => exact hraised trivial
  | dtoTimer => exact hraised trivial
  | cmd11Timer => exact hraised trivial

theorem exists_off_of_rank_le {as : List Action} {s s' : State}
    (hrun : (taskletSystem reqs).runFrom s as = some s')
    (hcount : s.host.pc.rank ≤ as.count .tasklet) :
    ∃ bs u, bs <+: as ∧ (taskletSystem reqs).runFrom s bs = some u ∧ u.host.pc = .off := by
  induction as generalizing s with
  | nil =>
    exact ⟨[], s, List.nil_prefix, rfl, Pc.rank_eq_zero (Nat.le_zero.mp hcount)⟩
  | cons a as ih =>
    by_cases hpc : s.host.pc = .off
    · exact ⟨[], s, List.nil_prefix, rfl, hpc⟩
    obtain ⟨t, hnext, hrest⟩ := (taskletSystem reqs).runFrom_cons_eq_some.mp hrun
    have hrank : t.host.pc.rank ≤ as.count .tasklet := by
      by_cases ha : a = .tasklet
      · subst ha
        obtain rfl := Option.some.inj hnext
        rw [List.count_cons_self] at hcount
        exact Nat.le_of_lt_succ ((rank_taskletStep hpc).trans_le hcount)
      · rw [pc_next hpc ha hnext]
        rwa [List.count_cons_of_ne ha] at hcount
    obtain ⟨bs, u, hbs, hrun', hoff⟩ := ih hrest hrank
    refine ⟨a :: bs, u, (List.prefix_cons_inj a).mpr hbs, ?_, hoff⟩
    exact (taskletSystem reqs).runFrom_cons_eq_some.mpr ⟨t, hnext, hrun'⟩

/-- **The tasklet ends**, whatever comes while it runs: the loop of `dw_mci_tasklet_func` tests the
events eight times at most. -/
theorem tasklet_leaves {as : List Action} {s s' : State}
    (hrun : (taskletSystem reqs).runFrom s as = some s') (hcount : 8 ≤ as.count .tasklet) :
    ∃ bs u, bs <+: as ∧ (taskletSystem reqs).runFrom s bs = some u ∧ u.host.pc = .off :=
  exists_off_of_rank_le hrun (s.host.pc.rank_le.trans hcount)

/-! ### A run -/

/-- Requests to read a block. -/
def readMrq : Mrq where
  sbc := false
  data := some ⟨.read, 512, true⟩
  stop := false
  switchVoltage := false
  tuning := false
  abortable := true
  rspPresent _ := true
  rspCrc _ := true

/-- A block is read. The next one fails, its error comes while the tasklet runs, and an interrupt
that has bytes to move comes before the controller is reset. -/
def sampleRun : List Action :=
  [.request 0 true, .cmdDone 4, .tasklet, .dataReady .read 512 true, .tasklet, .tasklet,
    .dataOver 8, .tasklet, .tasklet, .tasklet, .request 1 true, .cmdDone 4, .tasklet, .tasklet,
    .dataError 0x80, .tasklet, .dataOver 8, .tasklet, .tasklet, .dataReady .read 4 false,
    .cmdDone 4, .tasklet, .tasklet]

/-- The last state of a run. -/
def afterRun (as : List Action) : State :=
  ((taskletSystem fun _ => readMrq).run as).getD (taskletSystem fun _ => readMrq).init

theorem run_eq_afterRun {as : List Action}
    (h : ((taskletSystem fun _ => readMrq).run as).isSome) :
    (taskletSystem fun _ => readMrq).run as = some (afterRun as) := by
  obtain ⟨s, hs⟩ := Option.isSome_iff_exists.mp h
  rw [afterRun, hs]
  rfl

theorem requests_given_back_sampleRun :
    (afterRun sampleRun).issued =
      (afterRun sampleRun).host.ended.map Completion.mrq ++ (afterRun sampleRun).host.mrq.toList ∧
    ¬(taskletSystem fun _ => readMrq).Always (fun s => s.irqFault = false)
      (taskletSystem fun _ => readMrq).init sampleRun :=
  have hboth := requests_given_back (@run_eq_afterRun sampleRun (by decide +kernel))
    (by decide +kernel)
  ⟨hboth.1.1, hboth.2.not.mpr (by decide +kernel)⟩

theorem given_back_sound_sampleRun :
    ((afterRun sampleRun).host.ended.get ⟨0, by decide +kernel⟩).bytesXfered = 512 :=
  ((given_back_sound (run_eq_afterRun (by decide +kernel)) (by decide +kernel) (List.get_mem _ _)
    (by decide +kernel) (by decide +kernel) (by decide +kernel)).2 ⟨.read, 512, true⟩ rfl).2

theorem tasklet_leaves_sampleRun :
    ∃ bs u, bs <+: List.replicate 8 Action.tasklet ∧
      (taskletSystem fun _ => readMrq).runFrom (afterRun (sampleRun.take 3)) bs = some u ∧
        u.host.pc = .off :=
  tasklet_leaves (Option.some_get (by decide +kernel)).symm (by decide)

end LinuxDriver.DwMmc.Tasklet
