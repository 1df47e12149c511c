import LinuxDriver.Kernel
import LinuxDriver.SlotTable

/-!
# The command queue host

A command queue engine has 32 slots. A request is put into the slot of its tag under the lock of
the host and rung in at the doorbell. The interrupt takes it out of its slot again when the engine
reports its task as complete. After an error or a timeout the queue is halted: nothing is accepted
and nothing completed then, until recovery has given every request back and lets the queue go on.

A bit mask of slot flags is the set of its bits. The calls of `mmc_cqe_request_done` are kept in the
order in which they were made, each with the request, what it left in it, and which of the two
functions made it. `asked` says that the layer above has been told of a halt, by the notifier of a
request or by the result of `cqhci_timeout`.

## Main definitions

* `SlotFlag`, `Mrq`, `Slot`, `Completion`, `WaiterPc`, `Host`.
* `cqhciErrorFlags`, `cqhciErrorFromFlags`: flags from errors, and errors from flags.
* `Host.submit`, `Host.errorIrq`, `Host.completeIrq`, `Host.timeout`, `Host.recoverMrq`,
  `Host.recoveryFinish`: the critical sections of the driver.

## Main results

* `Host.errorIrq_eq_or_alerted`, `Host.recoveryHalt_errorIrq`: what an error interrupt does.
* `Host.finishMrq_cases`, `Host.timeout_cases`, `Host.recoverMrq_cases`.
* `cqhciErrorFromFlags_eq_zero`: every flag gives an error.
-/

namespace LinuxDriver.Cqhci

/-! ### Requests, slots and the host -/

/-- `CQHCI_EXTERNAL_TIMEOUT`, `CQHCI_COMPLETED`, `CQHCI_HOST_CRC`, `CQHCI_HOST_TIMEOUT` and
`CQHCI_HOST_OTHER`. -/
inductive SlotFlag
  | externalTimeout
  | completed
  | hostCrc
  | hostTimeout
  | hostOther
  deriving DecidableEq

/-- `NUM_SLOTS` slots, by their tag. -/
abbrev Tag := Fin 32

/-- `DCMD_SLOT` -/
def dcmdSlot : Tag := 31

/-- `struct mmc_data` of a request, with the bytes that are left of its block request. -/
structure MrqData where
  blksz : ℕ
  blocks : ℕ
  error : ℤ
  rqBytes : ℕ
  deriving DecidableEq

/-- A `struct mmc_request`: a direct command, by its `error`, or data to move. -/
structure Mrq where
  id : ℕ
  tag : Tag
  cmd : Option ℤ
  data : Option MrqData
  some_part : cmd.isSome ∨ data.isSome
  deriving DecidableEq

/-- `cqhci_tag` -/
def cqhciTag (mrq : Mrq) : Tag := if mrq.cmd.isSome then dcmdSlot else mrq.tag

/-- A read of eight sectors in slot 5. -/
def readMrq (id : ℕ) : Mrq := ⟨id, 5, none, some ⟨512, 8, 0, 4096⟩, .inr rfl⟩

/-- A flush of the cache of the card. -/
def flushMrq (id : ℕ) : Mrq := ⟨id, dcmdSlot, some 0, none, .inl rfl⟩

/-- `struct cqhci_slot` -/
structure Slot where
  mrq : Option Mrq
  flags : Finset SlotFlag

/-- What called `mmc_cqe_request_done`: `cqhci_finish_mrq`, or `cqhci_recover_mrq` with the flags
of the slot. -/
inductive Cause
  | finished
  | recovered (flags : Finset SlotFlag)
  deriving DecidableEq

/-- A call of `mmc_cqe_request_done`: the request, and `bytes_xfered` and the errors of its data and
of its command then. -/
structure Completion where
  mrq : Mrq
  bytesXfered : ℕ
  cmdError : ℤ
  dataError : ℤ
  cause : Cause
  deriving DecidableEq

/-- The error that `mmc_blk_cqe_complete_rq` finds in a request. -/
def Completion.err (c : Completion) : ℤ :=
  if c.mrq.cmd.isSome ∧ c.cmdError ≠ 0 then c.cmdError
  else if c.mrq.data.isSome ∧ c.dataError ≠ 0 then c.dataError
  else 0

/-- A task in `cqhci_wait_for_idle`: about to look at the condition, or asleep since it did. -/
inductive WaiterPc
  | away
  | awake
  | asleep
  deriving DecidableEq

/-- `struct cqhci_host`, with `cqe_on` of its `mmc_host`. -/
structure Host where
  enabled : Bool
  activated : Bool
  cqeOn : Bool
  recoveryHalt : Bool
  waitingForIdle : Bool
  qcnt : ℤ
  slot : Tag → Slot
  waiter : ℕ → WaiterPc
  asked : Bool
  done : List Completion

namespace Host

/-- The requests in the slots. -/
def mrqs (h : Host) (tag : Tag) : Option Mrq := (h.slot tag).mrq

/-- `wake_up(&cq_host->wait_queue)` -/
def wakeUp (h : Host) : Host :=
  { h with waiter := fun w => if h.waiter w = .asleep then .awake else h.waiter w }

/-- A slot given other contents. -/
def setSlot (h : Host) (tag : Tag) (slot : Slot) : Host :=
  { h with slot := Function.update h.slot tag slot }

/-- The flags of a slot replaced. -/
def setFlags (h : Host) (tag : Tag) (flags : Finset SlotFlag) : Host :=
  h.setSlot tag ⟨(h.slot tag).mrq, flags⟩

end Host

/-! ### Flags and errors -/

/-- `cqhci_error_flags` -/
def cqhciErrorFlags (error1 error2 : ℤ) : SlotFlag :=
  let error := if error1 ≠ 0 then error1 else error2
  if error = -eilseq then .hostCrc
  else if error = -etimedout then .hostTimeout
  else .hostOther

/-- `cqhci_error_from_flags` -/
def cqhciErrorFromFlags (flags : Finset SlotFlag) : ℤ :=
  if flags = ∅ then 0
  else if .hostCrc ∈ flags then -eilseq
  else if .externalTimeout ∈ flags ∨ .hostTimeout ∈ flags then -etimedout
  else -eio

theorem cqhciErrorFromFlags_eq_zero {flags : Finset SlotFlag} :
    cqhciErrorFromFlags flags = 0 ↔ flags = ∅ := by
  unfold cqhciErrorFromFlags
  by_cases hflags : flags = ∅
  · simp [hflags]
  · rw [if_neg hflags]
    split_ifs <;> simp [hflags, eilseq, etimedout, eio]

/-- `CQHCI_TERRI_C_VALID` and `CQHCI_TERRI_C_TASK`: the task whose command failed. -/
def terriCTask (terri : BitVec 32) : Option Tag :=
  if terri.getLsbD 15 then some (Fin.ofNat 32 (terri.extractLsb' 8 5).toNat) else none

/-- `CQHCI_TERRI_D_VALID` and `CQHCI_TERRI_D_TASK`: the task whose data failed. -/
def terriDTask (terri : BitVec 32) : Option Tag :=
  if terri.getLsbD 31 then some (Fin.ofNat 32 (terri.extractLsb' 24 5).toNat) else none

namespace Host

/-! ### The critical sections -/

/-- `__cqhci_enable` -/
def enableEngine (h : Host) : Host := { h with cqeOn := true, activated := true }

/-- `__cqhci_disable` -/
def disableEngine (h : Host) : Host := { h with cqeOn := false, activated := false }

/-- `cqhci_suspend` -/
def suspend (h : Host) : Host := if h.enabled then h.disableEngine else h

/-- `cqhci_enable`, with whether the descriptors could be allocated. -/
def enable (h : Host) (allocated : Bool) : Host :=
  if h.enabled then h
  else if allocated then { h.enableEngine with enabled := true }
  else h

/-- `cqhci_off` -/
def off (h : Host) : Host :=
  if ¬h.enabled ∨ ¬h.cqeOn ∨ h.recoveryHalt then h else { h with cqeOn := false }

/-- `cqhci_disable` -/
def disable (h : Host) : Host :=
  if ¬h.enabled then h else { h.off.disableEngine with enabled := false }

/-- The part of `cqhci_request` before it takes the lock, with whether `dma_map_sg` mapped the data;
its result is `err`. -/
def prepare (h : Host) (mrq : Mrq) (mapped : Bool) : Host × ℤ :=
  if ¬h.enabled then (h, -einval)
  else
    let h := if h.activated then h else h.enableEngine
    ({ h with cqeOn := true }, if mrq.data.isSome ∧ ¬mapped then -enomem else 0)

/-- The locked part of `cqhci_request`. -/
def submit (h : Host) (mrq : Mrq) : Host × ℤ :=
  if h.recoveryHalt then (h, -ebusy)
  else ({ h.setSlot (cqhciTag mrq) ⟨some mrq, ∅⟩ with qcnt := h.qcnt + 1 }, 0)

/-- `cqhci_recovery_needed` -/
def recoveryNeeded (h : Host) (notify : Bool) : Host :=
  if h.recoveryHalt then h
  else { h.wakeUp with recoveryHalt := true, asked := h.asked || notify }

/-- The flags of a task replaced by an error, if a request is in its slot. -/
def failTask (h : Host) (tag : Tag) (flag : SlotFlag) : Host :=
  if (h.mrqs tag).isSome then (h.setFlags tag {flag}).recoveryNeeded true else h

/-- A task that the error information names, if it names one. -/
def failNamed (h : Host) (tag : Option Tag) (flag : SlotFlag) : Host :=
  tag.elim h fun tag => h.failTask tag flag

/-- The slots that hold a request, by increasing tag. -/
def occupied (h : Host) : List Tag := (List.finRange 32).filter fun tag => (h.mrqs tag).isSome

/-- `cqhci_error_irq` -/
def errorIrq (h : Host) (cmdError dataError : ℤ) (terri : BitVec 32) : Host :=
  if h.recoveryHalt then h
  else if h.qcnt = 0 then h
  else
    let h1 := h.failNamed (terriCTask terri) (cqhciErrorFlags cmdError dataError)
    let h2 := h1.failNamed (terriDTask terri) (cqhciErrorFlags dataError cmdError)
    if h2.recoveryHalt then h2
    else h2.failNamed h2.occupied.head? (cqhciErrorFlags dataError cmdError)

/-- A request taken out of its slot, and given back. -/
def giveBack (h : Host) (tag : Tag) (c : Completion) : Host :=
  { h.setSlot tag ⟨none, (h.slot tag).flags⟩ with qcnt := h.qcnt - 1, done := h.done ++ [c] }

/-- What `cqhci_finish_mrq` leaves in a request. -/
def finishedWith (mrq : Mrq) : Completion :=
  match mrq.data with
  | some data =>
    ⟨mrq, if data.error ≠ 0 then 0 else data.blksz * data.blocks, mrq.cmd.getD 0, data.error,
      .finished⟩
  | none => ⟨mrq, 0, mrq.cmd.getD 0, 0, .finished⟩

/-- `cqhci_finish_mrq` -/
def finishMrq (h : Host) (tag : Tag) : Host :=
  match h.mrqs tag with
  | none => h
  | some mrq =>
    if h.recoveryHalt then h.setFlags tag (insert .completed (h.slot tag).flags)
    else h.giveBack tag (finishedWith mrq)

/-- The part of `cqhci_irq` for `CQHCI_IS_TCC`, with the completion notification that it reads. -/
def completeIrq (h : Host) (tcn : BitVec 32) : Host :=
  let h1 := ((List.finRange 32).filter fun tag : Tag => tcn.getLsbD tag.val).foldl finishMrq h
  if h1.waitingForIdle ∧ h1.qcnt = 0 then { h1 with waitingForIdle := false }.wakeUp else h1

/-- `cqhci_is_idle`: whether to stop waiting, and `*ret`. -/
def isIdle (h : Host) : Host × Bool × ℤ :=
  let isIdle : Bool := h.qcnt = 0 ∨ h.recoveryHalt
  ({ h with waitingForIdle := !isIdle }, isIdle, if h.recoveryHalt then -ebusy else 0)

/-- `cqhci_timeout`, with `*recovery_needed` told to the layer above. -/
def timeout (h : Host) (mrq : Mrq) : Host × Bool :=
  let tag := cqhciTag mrq
  if h.mrqs tag = some mrq then
    let h1 := (h.setFlags tag (insert .externalTimeout (h.slot tag).flags)).recoveryNeeded false
    ({ h1 with asked := h1.asked || h1.recoveryHalt }, true)
  else (h, false)

/-- What `cqhci_recover_mrq` leaves in a request. -/
def recoveredWith (mrq : Mrq) (flags : Finset SlotFlag) : Completion :=
  if mrq.data.isSome then ⟨mrq, 0, mrq.cmd.getD 0, cqhciErrorFromFlags flags, .recovered flags⟩
  else ⟨mrq, 0, cqhciErrorFromFlags flags, 0, .recovered flags⟩

/-- `cqhci_recover_mrq` -/
def recoverMrq (h : Host) (tag : Tag) : Host :=
  match h.mrqs tag with
  | none => h
  | some mrq => h.giveBack tag (recoveredWith mrq (h.slot tag).flags)

/-- The end of `cqhci_recovery_finish`, after `cqhci_recover_mrqs`. -/
def recoveryFinish (h : Host) : Host :=
  { h with qcnt := 0, recoveryHalt := false, cqeOn := false, asked := false }

/-! ### What the slots hold -/

variable {h h' : Host} {tag : Tag} {mrq : Mrq}

/-- The requests in the slots, with multiplicity. -/
def queued (h : Host) : Multiset Mrq := SlotTable.contents h.mrqs

@[simp] theorem mrqs_setSlot (h : Host) (tag : Tag) (slot : Slot) :
    (h.setSlot tag slot).mrqs = Function.update h.mrqs tag slot.mrq := by
  funext t
  by_cases ht : t = tag
  · subst ht
    simp [mrqs, setSlot]
  · simp [mrqs, setSlot, Function.update_of_ne ht]

@[simp] theorem mrqs_setFlags (h : Host) (tag : Tag) (flags : Finset SlotFlag) :
    (h.setFlags tag flags).mrqs = h.mrqs := by
  rw [setFlags, mrqs_setSlot]
  exact Function.update_eq_self tag h.mrqs

theorem mrqs_giveBack (h : Host) (tag : Tag) (c : Completion) :
    (h.giveBack tag c).mrqs = Function.update h.mrqs tag none :=
  mrqs_setSlot h tag ⟨none, (h.slot tag).flags⟩

theorem mrqs_submit (hhalt : h.recoveryHalt = false) :
    (h.submit mrq).1.mrqs = Function.update h.mrqs (cqhciTag mrq) (some mrq) := by
  rw [submit, if_neg (by simp [hhalt])]
  exact mrqs_setSlot h (cqhciTag mrq) ⟨some mrq, ∅⟩

theorem queued_submit (hhalt : h.recoveryHalt = false) (hfree : h.mrqs (cqhciTag mrq) = none) :
    (h.submit mrq).1.queued = mrq ::ₘ h.queued := by
  rw [queued, mrqs_submit hhalt, SlotTable.contents_update_some hfree]
  rfl

/-- A request put into the slot of another one replaces it. -/
theorem card_queued_submit_of_some {old : Mrq} (hhalt : h.recoveryHalt = false)
    (hold : h.mrqs (cqhciTag mrq) = some old) : (h.submit mrq).1.queued.card = h.queued.card := by
  rw [queued, mrqs_submit hhalt]
  exact SlotTable.card_contents_update_some hold mrq

theorem queued_giveBack (hmrq : h.mrqs tag = some mrq) (c : Completion) :
    mrq ::ₘ (h.giveBack tag c).queued = h.queued := by
  rw [queued, mrqs_giveBack]
  exact SlotTable.cons_contents_update_none hmrq

theorem flags_setFlags_self (h : Host) (tag : Tag) (flags : Finset SlotFlag) :
    ((h.setFlags tag flags).slot tag).flags = flags := by
  simp [setFlags, setSlot]

theorem flags_setFlags_of_ne {t : Tag} (ht : t ≠ tag) (h : Host) (flags : Finset SlotFlag) :
    ((h.setFlags tag flags).slot t).flags = (h.slot t).flags := by
  simp [setFlags, setSlot, Function.update_of_ne ht]

/-- A flagged slot stays flagged when the flags of a slot are replaced by other ones. -/
theorem flags_setFlags_ne_empty {flags : Finset SlotFlag} (hflags : flags ≠ ∅) {t : Tag}
    (ht : (h.slot t).flags ≠ ∅) : ((h.setFlags tag flags).slot t).flags ≠ ∅ := by
  by_cases htag : t = tag
  · subst htag
    rwa [flags_setFlags_self]
  · rwa [flags_setFlags_of_ne htag]

theorem flags_giveBack (h : Host) (tag : Tag) (c : Completion) (t : Tag) :
    ((h.giveBack tag c).slot t).flags = (h.slot t).flags := by
  by_cases htag : t = tag
  · subst htag
    simp [giveBack, setSlot]
  · simp [giveBack, setSlot, Function.update_of_ne htag]

/-! ### What the critical sections do -/

/-- Everything that the queue consists of is as it was; flags, sleepers and the halt may not be. -/
structure SameQueue (h h' : Host) : Prop where
  mrqs : h'.mrqs = h.mrqs
  qcnt : h'.qcnt = h.qcnt
  done : h'.done = h.done
  cqeOn : h'.cqeOn = h.cqeOn
  waitingForIdle : h'.waitingForIdle = h.waitingForIdle

theorem SameQueue.trans {h'' : Host} (h₁ : SameQueue h h') (h₂ : SameQueue h' h'') :
    SameQueue h h'' :=
  ⟨h₂.mrqs.trans h₁.mrqs, h₂.qcnt.trans h₁.qcnt, h₂.done.trans h₁.done, h₂.cqeOn.trans h₁.cqeOn,
    h₂.waitingForIdle.trans h₁.waitingForIdle⟩

/-- Nobody sleeps through a halt, and a halted queue has told the layer above. -/
structure Quiet (h : Host) : Prop where
  awake : h.recoveryHalt = true → ∀ w, h.waiter w ≠ .asleep
  asked : h.recoveryHalt = true → h.asked = true

/-- A task that is in its slot carries a flag, the queue is halted, nobody sleeps, and the layer
above has been told. -/
structure Alerted (h h' : Host) : Prop extends SameQueue h h', Quiet h' where
  halted : h'.recoveryHalt = true
  flagged : ∃ tag, (h.mrqs tag).isSome ∧ (h'.slot tag).flags ≠ ∅
  kept : ∀ tag, (h.slot tag).flags ≠ ∅ → (h'.slot tag).flags ≠ ∅

theorem wakeUp_waiter_ne_asleep (h : Host) (w : ℕ) : h.wakeUp.waiter w ≠ .asleep := by
  by_cases hw : h.waiter w = .asleep
  · simp [wakeUp, hw]
  · simp [wakeUp, hw]

theorem sameQueue_setFlags (h : Host) (tag : Tag) (flags : Finset SlotFlag) :
    SameQueue h (h.setFlags tag flags) :=
  ⟨mrqs_setFlags h tag flags, rfl, rfl, rfl, rfl⟩

theorem sameQueue_recoveryNeeded (h : Host) (notify : Bool) :
    SameQueue h (h.recoveryNeeded notify) := by
  unfold recoveryNeeded
  split_ifs
  · exact ⟨rfl, rfl, rfl, rfl, rfl⟩
  · exact ⟨rfl, rfl, rfl, rfl, rfl⟩

theorem recoveryHalt_recoveryNeeded (h : Host) (notify : Bool) :
    (h.recoveryNeeded notify).recoveryHalt = true := by
  unfold recoveryNeeded
  split_ifs with hhalt
  · exact hhalt
  · rfl

theorem slot_recoveryNeeded (h : Host) (notify : Bool) :
    (h.recoveryNeeded notify).slot = h.slot := by
  unfold recoveryNeeded
  split_ifs <;> rfl

theorem waiter_recoveryNeeded (hq : h.Quiet) (notify : Bool) (w : ℕ) :
    (h.recoveryNeeded notify).waiter w ≠ .asleep := by
  unfold recoveryNeeded
  split_ifs with hhalt
  · exact hq.awake hhalt w
  · exact wakeUp_waiter_ne_asleep h w

theorem quiet_setFlags (hq : h.Quiet) (tag : Tag) (flags : Finset SlotFlag) :
    (h.setFlags tag flags).Quiet :=
  ⟨hq.awake, hq.asked⟩

/-- A flag put on a task that is in its slot, and the queue halted for it. -/
theorem alerted_recoveryNeeded (hq : h.Quiet) (hocc : (h.mrqs tag).isSome)
    {flags : Finset SlotFlag} (hflags : flags ≠ ∅) :
    Alerted h ((h.setFlags tag flags).recoveryNeeded true) := by
  have hsame := (sameQueue_setFlags h tag flags).trans
    (sameQueue_recoveryNeeded (h.setFlags tag flags) true)
  refine ⟨hsame, ⟨fun _ => waiter_recoveryNeeded (quiet_setFlags hq tag flags) true, fun _ => ?_⟩,
    recoveryHalt_recoveryNeeded _ _, ⟨tag, hocc, ?_⟩, fun t ht => ?_⟩
  · unfold recoveryNeeded
    split_ifs with hhalt
    · exact hq.asked hhalt
    · exact Bool.or_true _
  · rw [slot_recoveryNeeded, flags_setFlags_self]
    exact hflags
  · rw [slot_recoveryNeeded]
    exact flags_setFlags_ne_empty hflags ht

/-- What `cqhci_error_irq` does with a task that the error information may name. -/
theorem failNamed_cases (hq : h.Quiet) (tag : Option Tag) (flag : SlotFlag) :
    h.failNamed tag flag = h ∨ Alerted h (h.failNamed tag flag) := by
  cases tag with
  | none => exact .inl rfl
  | some tag =>
    by_cases hocc : (h.mrqs tag).isSome
    · right
      have hfail : h.failNamed (some tag) flag = (h.setFlags tag {flag}).recoveryNeeded true :=
        if_pos hocc
      rw [hfail]
      exact alerted_recoveryNeeded hq hocc (Finset.singleton_ne_empty flag)
    · exact .inl (if_neg hocc)

theorem mrqs_failNamed (h : Host) (tag : Option Tag) (flag : SlotFlag) :
    (h.failNamed tag flag).mrqs = h.mrqs := by
  cases tag with
  | none => rfl
  | some tag =>
    change (h.failTask tag flag).mrqs = h.mrqs
    unfold failTask
    split_ifs
    · rw [(sameQueue_recoveryNeeded _ true).mrqs, mrqs_setFlags]
    · rfl

theorem Alerted.trans {h'' : Host} (h₁ : Alerted h h') (h₂ : Alerted h' h'') : Alerted h h'' := by
  obtain ⟨tag, hocc, hflags⟩ := h₂.flagged
  exact ⟨h₁.toSameQueue.trans h₂.toSameQueue, h₂.toQuiet, h₂.halted,
    ⟨tag, by rwa [← h₁.mrqs], hflags⟩, fun t ht => h₂.kept t (h₁.kept t ht)⟩

/-- One more task that the error information may name. -/
theorem failNamed_of_cases (hq : h.Quiet) (hh' : h' = h ∨ Alerted h h') (tag : Option Tag)
    (flag : SlotFlag) : h'.failNamed tag flag = h ∨ Alerted h (h'.failNamed tag flag) := by
  rcases hh' with rfl | ha
  · exact failNamed_cases hq tag flag
  · rcases failNamed_cases ha.toQuiet tag flag with heq | hb
    · rw [heq]
      exact .inr ha
    · exact .inr (ha.trans hb)

theorem mem_occupied : tag ∈ h.occupied ↔ (h.mrqs tag).isSome := by
  simp [occupied]

theorem failNamed_some (hocc : (h.mrqs tag).isSome) (flag : SlotFlag) :
    h.failNamed (some tag) flag = (h.setFlags tag {flag}).recoveryNeeded true :=
  if_pos hocc

/-- An error interrupt leaves the queue as it is, or halts it with a flag on a task. -/
theorem errorIrq_eq_or_alerted (hq : h.Quiet) (cmdError dataError : ℤ) (terri : BitVec 32) :
    h.errorIrq cmdError dataError terri = h ∨
      Alerted h (h.errorIrq cmdError dataError terri) := by
  unfold errorIrq
  by_cases hhalt : h.recoveryHalt = true
  · exact .inl (if_pos hhalt)
  by_cases hzero : h.qcnt = 0
  · exact .inl (by rw [if_neg hhalt, if_pos hzero])
  rw [if_neg hhalt, if_neg hzero]
  dsimp only
  set h1 := h.failNamed (terriCTask terri) (cqhciErrorFlags cmdError dataError)
  set h2 := h1.failNamed (terriDTask terri) (cqhciErrorFlags dataError cmdError)
  have hfirst : h1 = h ∨ Alerted h h1 := failNamed_cases hq _ _
  have hsecond : h2 = h ∨ Alerted h h2 := failNamed_of_cases hq hfirst _ _
  by_cases hhalt2 : h2.recoveryHalt = true
  · rw [if_pos hhalt2]
    exact hsecond
  · rw [if_neg hhalt2]
    exact failNamed_of_cases hq hsecond _ _

/-- If the error information names no task that is in its slot, one is picked. -/
theorem recoveryHalt_errorIrq (hzero : h.qcnt ≠ 0) (hocc : ∃ tag, (h.mrqs tag).isSome)
    (cmdError dataError : ℤ) (terri : BitVec 32) :
    (h.errorIrq cmdError dataError terri).recoveryHalt = true := by
  unfold errorIrq
  by_cases hhalt : h.recoveryHalt = true
  · rw [if_pos hhalt]
    exact hhalt
  rw [if_neg hhalt, if_neg hzero]
  dsimp only
  set h1 := h.failNamed (terriCTask terri) (cqhciErrorFlags cmdError dataError)
  set h2 := h1.failNamed (terriDTask terri) (cqhciErrorFlags dataError cmdError)
  by_cases hhalt2 : h2.recoveryHalt = true
  · rw [if_pos hhalt2]
    exact hhalt2
  rw [if_neg hhalt2]
  have hmrqs : h2.mrqs = h.mrqs :=
    (mrqs_failNamed h1 _ _).trans (mrqs_failNamed h _ _)
  obtain ⟨tag, htag⟩ := hocc
  have hne : h2.occupied ≠ [] := List.ne_nil_of_mem (mem_occupied.mpr (by rwa [hmrqs]))
  have hfirst : h2.occupied.head? = some (h2.occupied.head hne) := List.head?_eq_some_head hne
  rw [hfirst, failNamed_some (mem_occupied.mp (List.head_mem hne))]
  exact recoveryHalt_recoveryNeeded _ _

/-- A timeout of a request that has left its slot is ignored. Else the request is flagged, and the
queue halted. -/
theorem timeout_cases (hq : h.Quiet) (mrq : Mrq) :
    h.mrqs (cqhciTag mrq) ≠ some mrq ∧ h.timeout mrq = (h, false) ∨
      h.mrqs (cqhciTag mrq) = some mrq ∧ Alerted h (h.timeout mrq).1 ∧ (h.timeout mrq).2 = true := by
  by_cases hmrq : h.mrqs (cqhciTag mrq) = some mrq
  · right
    set flagged := h.setFlags (cqhciTag mrq) (insert .externalTimeout (h.slot (cqhciTag mrq)).flags)
      with hflagged
    have hstep : h.timeout mrq = ({ flagged.recoveryNeeded false with
        asked := (flagged.recoveryNeeded false).asked ||
          (flagged.recoveryNeeded false).recoveryHalt }, true) := by
      unfold timeout
      exact if_pos hmrq
    have hsame : SameQueue h (flagged.recoveryNeeded false) :=
      (sameQueue_setFlags h _ _).trans (sameQueue_recoveryNeeded flagged false)
    have hhalted : (flagged.recoveryNeeded false).recoveryHalt = true :=
      recoveryHalt_recoveryNeeded flagged false
    refine ⟨hmrq, ?_, by rw [hstep]⟩
    rw [hstep]
    refine ⟨⟨hsame.mrqs, hsame.qcnt, hsame.done, hsame.cqeOn, hsame.waitingForIdle⟩,
      ⟨fun _ => waiter_recoveryNeeded (quiet_setFlags hq _ _) false, fun _ => ?_⟩, hhalted,
      ⟨cqhciTag mrq, by simp [hmrq], ?_⟩, fun t ht => ?_⟩
    · simp [hhalted]
    · have hslot : ((flagged.recoveryNeeded false).slot (cqhciTag mrq)).flags =
          insert .externalTimeout (h.slot (cqhciTag mrq)).flags := by
        rw [slot_recoveryNeeded, hflagged, flags_setFlags_self]
      rw [hslot]
      exact Finset.insert_ne_empty _ _
    · have hslot : (flagged.recoveryNeeded false).slot t = flagged.slot t := by
        rw [slot_recoveryNeeded]
      rw [hslot]
      exact flags_setFlags_ne_empty (Finset.insert_ne_empty _ _) ht
  · exact .inl ⟨hmrq, if_neg hmrq⟩

/-- A completion notice for a task does nothing if its slot is free, marks the task while the queue
is halted, and gives its request back else. -/
theorem finishMrq_cases (h : Host) (tag : Tag) :
    h.mrqs tag = none ∧ h.finishMrq tag = h ∨
      ∃ mrq, h.mrqs tag = some mrq ∧
        (h.recoveryHalt = true ∧
            h.finishMrq tag = h.setFlags tag (insert .completed (h.slot tag).flags) ∨
          h.recoveryHalt = false ∧ h.finishMrq tag = h.giveBack tag (finishedWith mrq)) := by
  unfold finishMrq
  cases hmrq : h.mrqs tag with
  | none => exact .inl ⟨rfl, rfl⟩
  | some mrq =>
    right
    refine ⟨mrq, rfl, ?_⟩
    by_cases hhalt : h.recoveryHalt = true
    · exact .inl ⟨hhalt, if_pos hhalt⟩
    · exact .inr ⟨by simpa using hhalt, if_neg hhalt⟩

/-- The halt, the asking, the sleepers and the engine are as they were, and no slot was filled. -/
structure Frame (h h' : Host) : Prop where
  free : ∀ tag, h.mrqs tag = none → h'.mrqs tag = none
  recoveryHalt : h'.recoveryHalt = h.recoveryHalt
  asked : h'.asked = h.asked
  waiter : h'.waiter = h.waiter
  cqeOn : h'.cqeOn = h.cqeOn
  waitingForIdle : h'.waitingForIdle = h.waitingForIdle

theorem Frame.refl (h : Host) : Frame h h := ⟨fun _ => id, rfl, rfl, rfl, rfl, rfl⟩

theorem frame_giveBack (h : Host) (tag : Tag) (c : Completion) : Frame h (h.giveBack tag c) where
  free t ht := by
    rw [mrqs_giveBack]
    by_cases htag : t = tag
    · rw [htag, Function.update_self]
    · rw [Function.update_of_ne htag, ht]
  recoveryHalt := rfl
  asked := rfl
  waiter := rfl
  cqeOn := rfl
  waitingForIdle := rfl

theorem frame_finishMrq (h : Host) (tag : Tag) : Frame h (h.finishMrq tag) := by
  rcases h.finishMrq_cases tag with ⟨-, heq⟩ | ⟨mrq, -, ⟨-, heq⟩ | ⟨-, heq⟩⟩
  · rw [heq]
    exact Frame.refl h
  · rw [heq]
    exact ⟨fun t ht => by rwa [mrqs_setFlags], rfl, rfl, rfl, rfl, rfl⟩
  · rw [heq]
    exact frame_giveBack h tag _

/-- **Completion notices.** What holds before a completion interrupt, and is kept by each completion
notice and by waking who waits for idle, holds after it. -/
theorem completeIrq_induction {P : Host → Prop} (hh : P h)
    (hfinish : ∀ h tag, P h → P (h.finishMrq tag))
    (hwake : ∀ h, P h → P { h with waitingForIdle := false }.wakeUp) (tcn : BitVec 32) :
    P (h.completeIrq tcn) := by
  have hfold : ∀ (tags : List Tag) (h : Host), P h → P (tags.foldl finishMrq h) := by
    intro tags
    induction tags with
    | nil => exact fun h hh => hh
    | cons tag tags ih => exact fun h hh => ih (h.finishMrq tag) (hfinish h tag hh)
  unfold completeIrq
  dsimp only
  split_ifs
  · exact hwake _ (hfold _ h hh)
  · exact hfold _ h hh

/-- Recovery gives back what is in a slot. -/
theorem recoverMrq_cases (h : Host) (tag : Tag) :
    h.mrqs tag = none ∧ h.recoverMrq tag = h ∨
      ∃ mrq, h.mrqs tag = some mrq ∧
        h.recoverMrq tag = h.giveBack tag (recoveredWith mrq (h.slot tag).flags) := by
  unfold recoverMrq
  cases hmrq : h.mrqs tag with
  | none => exact .inl ⟨rfl, rfl⟩
  | some mrq => exact .inr ⟨mrq, rfl, rfl⟩

theorem frame_recoverMrq (h : Host) (tag : Tag) : Frame h (h.recoverMrq tag) := by
  rcases h.recoverMrq_cases tag with ⟨-, heq⟩ | ⟨mrq, -, heq⟩
  · rw [heq]
    exact Frame.refl h
  · rw [heq]
    exact frame_giveBack h tag _

theorem mrqs_recoverMrq_self (h : Host) (tag : Tag) : (h.recoverMrq tag).mrqs tag = none := by
  rcases h.recoverMrq_cases tag with ⟨hnone, heq⟩ | ⟨mrq, -, heq⟩
  · rw [heq, hnone]
  · rw [heq, mrqs_giveBack, Function.update_self]

/-! ### The engine -/

/-- Only the switches of the engine may differ. -/
def SwitchOnly (h h' : Host) : Prop :=
  ∃ enabled activated cqeOn,
    h' = { h with enabled := enabled, activated := activated, cqeOn := cqeOn }

theorem switchOnly_off (h : Host) : SwitchOnly h h.off := by
  unfold off
  split_ifs
  · exact ⟨h.enabled, h.activated, h.cqeOn, rfl⟩
  · exact ⟨h.enabled, h.activated, false, rfl⟩

theorem switchOnly_suspend (h : Host) : SwitchOnly h h.suspend := by
  unfold suspend
  split_ifs
  · exact ⟨h.enabled, false, false, rfl⟩
  · exact ⟨h.enabled, h.activated, h.cqeOn, rfl⟩

theorem switchOnly_enable (h : Host) (allocated : Bool) : SwitchOnly h (h.enable allocated) := by
  unfold enable
  split_ifs
  · exact ⟨h.enabled, h.activated, h.cqeOn, rfl⟩
  · exact ⟨true, true, true, rfl⟩
  · exact ⟨h.enabled, h.activated, h.cqeOn, rfl⟩

theorem switchOnly_disable (h : Host) : SwitchOnly h h.disable := by
  unfold disable
  split_ifs
  · obtain ⟨e, a, c, hoff⟩ := switchOnly_off h
    exact ⟨false, false, false, by rw [hoff]; rfl⟩
  · exact ⟨h.enabled, h.activated, h.cqeOn, rfl⟩

theorem switchOnly_prepare (h : Host) (mrq : Mrq) (mapped : Bool) :
    SwitchOnly h (h.prepare mrq mapped).1 := by
  unfold prepare
  split_ifs <;> exact ⟨_, _, _, rfl⟩

end Host

end LinuxDriver.Cqhci
