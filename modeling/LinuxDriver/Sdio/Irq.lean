import LinuxDriver.Kernel
import LinuxDriver.Lts
import LinuxDriver.MachineInt

/-!
# Interrupts of SDIO functions

Each function of an SDIO card may have an interrupt handler. The host counts the handlers, to know
when it needs its interrupt thread, and the card caches the only function with a handler, if there
is only one: `process_sdio_pending_irqs` then calls it without asking the card.

The interrupt path reads the registrations between the calls that change them, and a handler may
itself make such calls. A step of the system is a call, or the part of the interrupt path up to the
next call of a handler.

## Main definitions

* `IrqCard`, `IrqState`: a card with its functions, and what the registration reads and writes.
* `sdioClaimIrq`, `sdioReleaseIrq`: the two calls, with the helpers of the source.
* `processSdioPendingIrqs`, `probeFunc`, `leaveIrqs`: the interrupt path.
* `irqSystem`: the calls and the interrupt path in any order.

## Main results

* `irqSystem_calls_handlers`: the interrupt path never calls a `NULL` handler.
* `irqSystem_consistent`: the handlers, their count and the cached function fit together.
-/

namespace LinuxDriver.Sdio

/-! ### Cards and registrations -/

/-- What the registration knows of a card and its host. All functions are initialised before
`sdio_add_func` shows any of them to a driver, so each is counted by `sdio_funcs`. -/
structure IrqCard where
  capSdioIrq : Bool
  irqNothread : Bool
  sdioFuncs : ℕ
  sdioFunc : Fin 7 → Bool
  counted : ∀ i, sdioFunc i = true → i.1 < sdioFuncs

/-- The functions of a card, by their places in `sdio_func`. -/
abbrev IrqCard.Func (c : IrqCard) : Type := {i : Fin 7 // c.sdioFunc i = true}

/-- The number of a function. -/
def IrqCard.Func.num {c : IrqCard} (f : c.Func) : ℕ := f.1.1 + 1

/-- The function at a place of `sdio_func`, if there is one. -/
def IrqCard.func? (c : IrqCard) (i : ℕ) : Option c.Func :=
  if h : ∃ hi : i < 7, c.sdioFunc ⟨i, hi⟩ = true then some ⟨⟨i, h.1⟩, h.2⟩ else none

/-- Who runs `process_sdio_pending_irqs`: `sdio_run_irqs` or `sdio_irq_thread`. -/
inductive IrqCaller
  | work
  | thread
  deriving DecidableEq

/-- Where `process_sdio_pending_irqs` is: outside, at the place `i` of its loop, or returning. -/
inductive IrqPc
  | idle
  | probe (caller : IrqCaller) (i : ℕ) (pending : UInt8) (count : ℕ) (ret : ℤ)
  | leave (caller : IrqCaller) (ret : ℤ)
  deriving DecidableEq

/-- What the registration and the interrupt path read and write. `called` is what the interrupt
path has called, oldest first, `ienx` the byte last written to `SDIO_CCCR_IENx`, and `irqEnabled`
the last argument of `enable_sdio_irq`. -/
structure IrqState (c : IrqCard) (H : Type*) where
  irqHandler : c.Func → Option H
  sdioIrqs : ℕ
  sdioSingleIrq : Option c.Func
  sdioIrqPending : Bool
  sdioIrqThread : Bool
  sdioIrqThreadAbort : Bool
  irqEnabled : Bool
  ienx : UInt8
  pc : IrqPc
  called : List (Option H)

/-- What the environment decides about the accesses to `SDIO_CCCR_IENx` in a call. -/
structure IenxIo where
  readRet : ℤ
  reg : UInt8
  writeRet : ℤ

variable {c : IrqCard} {H : Type*}

/-- A card on which nothing is registered. -/
def IrqState.fresh (c : IrqCard) (H : Type*) : IrqState c H where
  irqHandler _ := none
  sdioIrqs := 0
  sdioSingleIrq := none
  sdioIrqPending := false
  sdioIrqThread := false
  sdioIrqThreadAbort := false
  irqEnabled := false
  ienx := 0
  pc := .idle
  called := []

/-- The state with another value of `sdio_irqs`. -/
def IrqState.setIrqs (s : IrqState c H) (irqs : ℕ) : IrqState c H := { s with sdioIrqs := irqs }

section SetIrqs

variable (s : IrqState c H) (irqs : ℕ)

@[simp] theorem IrqState.setIrqs_irqHandler : (s.setIrqs irqs).irqHandler = s.irqHandler := rfl

@[simp] theorem IrqState.setIrqs_sdioIrqs : (s.setIrqs irqs).sdioIrqs = irqs := rfl

@[simp] theorem IrqState.setIrqs_called : (s.setIrqs irqs).called = s.called := rfl

end SetIrqs

/-! ### Claiming and releasing -/

/-- `sdio_card_irq_get`. The error of `kthread_run` is `threadErr`. -/
def sdioCardIrqGet (s : IrqState c H) (threadErr : ℤ) : IrqState c H × ℤ :=
  let irqs := s.sdioIrqs
  let s := s.setIrqs (wrapAdd 32 s.sdioIrqs 1)
  if irqs = 0 then
    if !c.irqNothread then
      let s := { s with sdioIrqThreadAbort := false }
      if threadErr ≠ 0 then (s.setIrqs (s.sdioIrqs - 1), threadErr)
      else ({ s with sdioIrqThread := true }, 0)
    else if c.capSdioIrq then ({ s with irqEnabled := true }, 0)
    else (s, 0)
  else (s, 0)

/-- `sdio_card_irq_put` -/
def sdioCardIrqPut (s : IrqState c H) : IrqState c H × ℤ :=
  if s.sdioIrqs < 1 then (s, -einval)
  else
    let s := s.setIrqs (s.sdioIrqs - 1)
    if s.sdioIrqs = 0 then
      if !c.irqNothread then ({ s with sdioIrqThreadAbort := true, sdioIrqThread := false }, 0)
      else if c.capSdioIrq then ({ s with irqEnabled := false }, 0)
      else (s, 0)
    else (s, 0)

/-- The function that `sdio_single_irq_set` caches. -/
def singleIrq (handler : c.Func → Option H) (irqs : ℕ) : Option c.Func :=
  if c.capSdioIrq ∧ irqs = 1 then
    (List.range c.sdioFuncs).findSome? fun i =>
      match c.func? i with
      | some f => if (handler f).isSome then some f else none
      | none => none
  else none

/-- `sdio_single_irq_set` -/
def sdioSingleIrqSet (s : IrqState c H) : IrqState c H :=
  { s with sdioSingleIrq := singleIrq s.irqHandler s.sdioIrqs }

/-- `sdio_claim_irq`: the state and the value returned. -/
def sdioClaimIrq (s : IrqState c H) (func : Option c.Func) (handler : Option H) (io : IenxIo)
    (threadErr : ℤ) : IrqState c H × ℤ :=
  match func with
  | none => (s, -einval)
  | some f =>
    if (s.irqHandler f).isSome then (s, -ebusy)
    else if io.readRet ≠ 0 then (s, io.readRet)
    else
      let reg := io.reg ||| UInt8.ofNat (1 <<< f.num)
      let reg := reg ||| 1
      if io.writeRet ≠ 0 then (s, io.writeRet)
      else
        let s := { s with ienx := reg, irqHandler := Function.update s.irqHandler f handler }
        let (s, ret) := sdioCardIrqGet s threadErr
        let s := if ret ≠ 0 then
          { s with irqHandler := Function.update s.irqHandler f none } else s
        (sdioSingleIrqSet s, ret)

/-- `sdio_release_irq`: the state and the value returned. -/
def sdioReleaseIrq (s : IrqState c H) (func : Option c.Func) (io : IenxIo) : IrqState c H × ℤ :=
  match func with
  | none => (s, -einval)
  | some f =>
    let s := if (s.irqHandler f).isSome then
        sdioSingleIrqSet
          (sdioCardIrqPut { s with irqHandler := Function.update s.irqHandler f none }).1
      else s
    if io.readRet ≠ 0 then (s, io.readRet)
    else
      let reg := io.reg &&& ~~~UInt8.ofNat (1 <<< f.num)
      let reg := if reg &&& 0xFE = 0 then 0 else reg
      if io.writeRet ≠ 0 then (s, io.writeRet)
      else ({ s with ienx := reg }, 0)

/-! ### The interrupt path -/

/-- `process_sdio_pending_irqs` up to its loop. The read of `SDIO_CCCR_INTx` returns `readRet` and
gives `pending`. -/
def processSdioPendingIrqs (s : IrqState c H) (caller : IrqCaller) (readRet : ℤ)
    (pending : UInt8) : IrqState c H :=
  match s.sdioIrqPending, s.sdioSingleIrq with
  | true, some f => { s with called := s.called ++ [s.irqHandler f], pc := .leave caller 1 }
  | _, _ =>
    if readRet ≠ 0 then { s with pc := .leave caller readRet }
    else { s with pc := .probe caller 1 pending 0 0 }

/-- One round of the loop of `process_sdio_pending_irqs`, or its end. -/
def probeFunc (s : IrqState c H) (caller : IrqCaller) (i : ℕ) (pending : UInt8) (count : ℕ)
    (ret : ℤ) : IrqState c H :=
  if i ≤ 7 then
    if pending.toNat.testBit i then
      match c.func? (i - 1) with
      | none => { s with pc := .probe caller (i + 1) pending count (-einval) }
      | some f =>
        if (s.irqHandler f).isSome then
          { s with
            called := s.called ++ [s.irqHandler f]
            pc := .probe caller (i + 1) pending (count + 1) ret }
        else { s with pc := .probe caller (i + 1) pending count (-einval) }
    else { s with pc := .probe caller (i + 1) pending count ret }
  else { s with pc := .leave caller (if count ≠ 0 then count else ret) }

/-- What the callers do after `process_sdio_pending_irqs`. -/
def leaveIrqs (s : IrqState c H) : IrqCaller → IrqState c H
  | .work => { s with pc := .idle }
  | .thread => { s with sdioIrqPending := false, pc := .idle }

/-! ### The system -/

/-- A call, a signal of the host, or a step of the interrupt path. -/
inductive IrqAction (c : IrqCard) (H : Type*)
  | claim (func : Option c.Func) (handler : Option H) (io : IenxIo) (threadErr : ℤ)
  | release (func : Option c.Func) (io : IenxIo)
  | signal
  | enter (caller : IrqCaller) (readRet : ℤ) (pending : UInt8)
  | step

/-- The effect of an action. The interrupt path is entered by one caller at a time, as it runs with
the host claimed. -/
def IrqState.next (s : IrqState c H) : IrqAction c H → Option (IrqState c H)
  | .claim func handler io threadErr => some (sdioClaimIrq s func handler io threadErr).1
  | .release func io => some (sdioReleaseIrq s func io).1
  | .signal => some { s with sdioIrqPending := true }
  | .enter .work readRet pending =>
    if s.pc ≠ .idle then none
    else if s.sdioIrqs ≠ 0 then
      some (processSdioPendingIrqs { s with sdioIrqPending := true } .work readRet pending)
    else some s
  | .enter .thread readRet pending =>
    if s.pc = .idle ∧ s.sdioIrqThread then
      some (processSdioPendingIrqs s .thread readRet pending)
    else none
  | .step =>
    match s.pc with
    | .idle => none
    | .probe caller i pending count ret => some (probeFunc s caller i pending count ret)
    | .leave caller _ => some (leaveIrqs s caller)

/-- Cards on which drivers claim and release the interrupts of any functions. -/
def irqSystem (c : IrqCard) (H : Type*) : Lts (IrqState c H) (IrqAction c H) where
  init := .fresh c H
  next := IrqState.next

/-- The number of functions with a handler. -/
def handlerCount (handler : c.Func → Option H) : ℕ :=
  (Finset.univ.filter fun f => (handler f).isSome).card

/-- The action is a call of `sdio_claim_irq` for the function, with a handler, that succeeds. -/
def ClaimedBy (f : c.Func) (s : IrqState c H) : IrqAction c H → Prop
  | .claim func handler io threadErr =>
    func = some f ∧ handler.isSome ∧ (sdioClaimIrq s func handler io threadErr).2 = 0
  | _ => False

/-- The action is a call of `sdio_release_irq` for the function. -/
def ReleasedBy (f : c.Func) : IrqAction c H → Prop
  | .release func _ => func = some f
  | _ => False

/-- The action does not claim an interrupt without giving a handler. -/
def IrqAction.GivesHandler : IrqAction c H → Prop
  | .claim _ handler _ _ => handler.isSome
  | _ => True

/-! ### The cached function -/

theorem func?_self (f : c.Func) : c.func? f.1.1 = some f :=
  dif_pos ⟨f.1.2, f.2⟩

theorem singleIrq_eq_some {handler : c.Func → Option H} {irqs : ℕ} {f : c.Func}
    (h : singleIrq handler irqs = some f) :
    c.capSdioIrq = true ∧ irqs = 1 ∧ (handler f).isSome := by
  unfold singleIrq at h
  split_ifs at h with hone
  obtain ⟨i, -, hi⟩ := List.exists_of_findSome?_eq_some h
  cases hfunc : c.func? i with
  | none => simp [hfunc] at hi
  | some g =>
    simp only [hfunc, Option.ite_none_right_eq_some, Option.some.injEq] at hi
    obtain ⟨hg, rfl⟩ := hi
    exact ⟨hone.1, hone.2, hg⟩

theorem exists_singleIrq_eq_some {handler : c.Func → Option H} {f : c.Func}
    (hcap : c.capSdioIrq = true) (hf : (handler f).isSome) :
    ∃ g, singleIrq handler 1 = some g := by
  rw [singleIrq, if_pos ⟨hcap, rfl⟩, ← Option.isSome_iff_exists, List.findSome?_isSome_iff]
  exact ⟨f.1.1, List.mem_range.mpr (c.counted f.1 f.2), by simp [func?_self, hf]⟩

/-- The handlers are counted by the functions that have one. -/
theorem handlerCount_update_some {handler : c.Func → Option H} {f : c.Func} {h : Option H}
    (hf : handler f = none) (hh : h.isSome) :
    handlerCount (Function.update handler f h) = handlerCount handler + 1 := by
  have hmem : f ∉ Finset.univ.filter fun g => (handler g).isSome := by simp [hf]
  rw [handlerCount, handlerCount, ← Finset.card_insert_of_notMem hmem]
  congr 1
  ext g
  by_cases hg : g = f
  · subst hg
    simp [hh]
  · simp [hg]

theorem handlerCount_update_none {handler : c.Func → Option H} {f : c.Func}
    (hf : (handler f).isSome) :
    handlerCount (Function.update handler f none) + 1 = handlerCount handler := by
  rw [← handlerCount_update_some (Function.update_self f none handler) hf,
    Function.update_idem, Function.update_eq_self]

theorem handlerCount_le (handler : c.Func → Option H) : handlerCount handler ≤ 7 :=
  (Finset.card_le_univ _).trans (Fintype.card_subtype_le _)

/-- With as many handlers as are counted, the cached function is the only one with a handler. -/
theorem singleIrq_handlerCount (handler : c.Func → Option H) (f : c.Func) :
    singleIrq handler (handlerCount handler) = some f ↔
      c.capSdioIrq = true ∧ ∀ g, (handler g).isSome ↔ g = f := by
  constructor
  · intro h
    obtain ⟨hcap, hone, hf⟩ := singleIrq_eq_some h
    obtain ⟨g, hg⟩ := Finset.card_eq_one.mp hone
    have hmem : ∀ k, (handler k).isSome ↔ k = g := by simpa [Finset.ext_iff] using hg
    obtain rfl : f = g := (hmem f).mp hf
    exact ⟨hcap, hmem⟩
  · rintro ⟨hcap, honly⟩
    have hone : handlerCount handler = 1 :=
      Finset.card_eq_one.mpr ⟨f, by ext g; simpa using honly g⟩
    obtain ⟨g, hg⟩ := exists_singleIrq_eq_some hcap ((honly f).mpr rfl)
    obtain rfl : g = f := (honly g).mp (singleIrq_eq_some hg).2.2
    rwa [hone]

/-! ### What a call does to the registrations -/

/-- The registrations are the same. -/
structure SameRegs (s s' : IrqState c H) : Prop where
  handler : s'.irqHandler = s.irqHandler
  irqs : s'.sdioIrqs = s.sdioIrqs
  single : s'.sdioSingleIrq = s.sdioSingleIrq

/-- The cached function is the one that `sdio_single_irq_set` would cache now. -/
def Cached (s : IrqState c H) : Prop :=
  s.sdioSingleIrq = singleIrq s.irqHandler s.sdioIrqs

theorem Cached.of_same {s s' : IrqState c H} (h : Cached s) (hsame : SameRegs s s') :
    Cached s' := by
  rw [Cached, hsame.single, hsame.handler, hsame.irqs]
  exact h

theorem SameRegs.refl (s : IrqState c H) : SameRegs s s := ⟨rfl, rfl, rfl⟩

@[simp] theorem sdioCardIrqGet_irqHandler (s : IrqState c H) (threadErr : ℤ) :
    (sdioCardIrqGet s threadErr).1.irqHandler = s.irqHandler := by
  simp only [sdioCardIrqGet]
  split_ifs <;> simp

@[simp] theorem sdioCardIrqGet_called (s : IrqState c H) (threadErr : ℤ) :
    (sdioCardIrqGet s threadErr).1.called = s.called := by
  simp only [sdioCardIrqGet]
  split_ifs <;> simp

@[simp] theorem sdioCardIrqPut_irqHandler (s : IrqState c H) :
    (sdioCardIrqPut s).1.irqHandler = s.irqHandler := by
  simp only [sdioCardIrqPut]
  split_ifs <;> simp

@[simp] theorem sdioCardIrqPut_called (s : IrqState c H) :
    (sdioCardIrqPut s).1.called = s.called := by
  simp only [sdioCardIrqPut]
  split_ifs <;> simp

@[simp] theorem sdioCardIrqPut_sdioIrqs (s : IrqState c H) :
    (sdioCardIrqPut s).1.sdioIrqs = s.sdioIrqs - 1 := by
  simp only [sdioCardIrqPut]
  split_ifs with hzero
  · simp only
    omega
  all_goals simp

/-- `sdio_card_irq_get` counts one more handler, unless there is no thread for the first one. -/
theorem sdioCardIrqGet_cases (s : IrqState c H) (threadErr : ℤ) :
    ((sdioCardIrqGet s threadErr).2 = 0 ∧
        (sdioCardIrqGet s threadErr).1.sdioIrqs = wrapAdd 32 s.sdioIrqs 1) ∨
      ((sdioCardIrqGet s threadErr).2 ≠ 0 ∧
        (sdioCardIrqGet s threadErr).1.sdioIrqs = s.sdioIrqs) := by
  simp only [sdioCardIrqGet]
  split_ifs with hzero hthread herr
  · refine .inr ⟨herr, ?_⟩
    simp only [IrqState.setIrqs_sdioIrqs]
    rw [hzero, wrapAdd_of_lt (by norm_num)]
  all_goals exact .inl ⟨rfl, by simp⟩

/-- **Claiming.** A call that fails leaves the registrations as they are. One that succeeds gives
its handler to a function that had none. -/
theorem sdioClaimIrq_cases {s : IrqState c H} (hs : Cached s) (func : Option c.Func)
    (handler : Option H) (io : IenxIo) (threadErr : ℤ) :
    ((sdioClaimIrq s func handler io threadErr).2 ≠ 0 ∧
        SameRegs s (sdioClaimIrq s func handler io threadErr).1) ∨
      ∃ f, func = some f ∧ s.irqHandler f = none ∧
        (sdioClaimIrq s func handler io threadErr).2 = 0 ∧
        (sdioClaimIrq s func handler io threadErr).1.irqHandler =
          Function.update s.irqHandler f handler ∧
        (sdioClaimIrq s func handler io threadErr).1.sdioIrqs = wrapAdd 32 s.sdioIrqs 1 ∧
        Cached (sdioClaimIrq s func handler io threadErr).1 := by
  cases func with
  | none => exact .inl ⟨by simp [sdioClaimIrq, einval], .refl s⟩
  | some f =>
    by_cases hbusy : (s.irqHandler f).isSome
    · refine .inl ?_
      rw [sdioClaimIrq, if_pos hbusy]
      exact ⟨by simp [ebusy], .refl s⟩
    have hnone : s.irqHandler f = none := by simpa using hbusy
    by_cases hread : io.readRet ≠ 0
    · refine .inl ?_
      rw [sdioClaimIrq, if_neg hbusy, if_pos hread]
      exact ⟨hread, .refl s⟩
    by_cases hwrite : io.writeRet ≠ 0
    · refine .inl ?_
      rw [sdioClaimIrq, if_neg hbusy, if_neg hread]
      simp only [if_pos hwrite]
      exact ⟨hwrite, .refl s⟩
    rw [sdioClaimIrq, if_neg hbusy, if_neg hread]
    simp only [if_neg hwrite]
    have hcases := sdioCardIrqGet_cases { s with
      ienx := io.reg ||| UInt8.ofNat (1 <<< f.num) ||| 1
      irqHandler := Function.update s.irqHandler f handler } threadErr
    have hhandler := sdioCardIrqGet_irqHandler { s with
      ienx := io.reg ||| UInt8.ofNat (1 <<< f.num) ||| 1
      irqHandler := Function.update s.irqHandler f handler } threadErr
    generalize sdioCardIrqGet _ threadErr = r at hcases hhandler ⊢
    rcases hcases with ⟨hret, hirqs⟩ | ⟨hret, hirqs⟩
    · rw [if_neg (not_not.mpr hret)]
      exact .inr ⟨f, rfl, hnone, hret, hhandler, hirqs, rfl⟩
    · have hback : Function.update r.1.irqHandler f none = s.irqHandler := by
        rw [hhandler, Function.update_idem, ← hnone, Function.update_eq_self]
      rw [if_pos hret]
      refine .inl ⟨hret, ⟨hback, hirqs, ?_⟩⟩
      rw [hs]
      exact congrArg₂ singleIrq hback hirqs

/-- **Releasing.** Whether or not the accesses to the card succeed, the function of the call has no
handler after it. -/
theorem sdioReleaseIrq_cases (s : IrqState c H) (func : Option c.Func) (io : IenxIo) :
    (SameRegs s (sdioReleaseIrq s func io).1 ∧ ∀ f, func = some f → s.irqHandler f = none) ∨
      ∃ f, func = some f ∧ (s.irqHandler f).isSome ∧
        (sdioReleaseIrq s func io).1.irqHandler = Function.update s.irqHandler f none ∧
        (sdioReleaseIrq s func io).1.sdioIrqs = s.sdioIrqs - 1 ∧
        Cached (sdioReleaseIrq s func io).1 := by
  cases func with
  | none => exact .inl ⟨.refl s, fun f hf => by cases hf⟩
  | some f =>
    by_cases hset : (s.irqHandler f).isSome
    · refine .inr ⟨f, rfl, hset, ?_⟩
      simp only [sdioReleaseIrq, if_pos hset]
      split_ifs <;> exact ⟨by simp [sdioSingleIrqSet], by simp [sdioSingleIrqSet], rfl⟩
    · refine .inl ⟨?_, fun g hg => ?_⟩
      · simp only [sdioReleaseIrq, if_neg hset]
        split_ifs <;> exact ⟨rfl, rfl, rfl⟩
      · obtain rfl := Option.some.inj hg
        simpa using hset

theorem sdioClaimIrq_called (s : IrqState c H) (func : Option c.Func) (handler : Option H)
    (io : IenxIo) (threadErr : ℤ) :
    (sdioClaimIrq s func handler io threadErr).1.called = s.called := by
  cases func with
  | none => rfl
  | some f =>
    simp only [sdioClaimIrq]
    split_ifs <;> simp [sdioSingleIrqSet]

theorem sdioReleaseIrq_called (s : IrqState c H) (func : Option c.Func) (io : IenxIo) :
    (sdioReleaseIrq s func io).1.called = s.called := by
  cases func with
  | none => rfl
  | some f =>
    simp only [sdioReleaseIrq]
    split_ifs <;> simp [sdioSingleIrqSet]

/-! ### What the interrupt path calls -/

theorem processSdioPendingIrqs_same (s : IrqState c H) (caller : IrqCaller) (readRet : ℤ)
    (pending : UInt8) : SameRegs s (processSdioPendingIrqs s caller readRet pending) := by
  unfold processSdioPendingIrqs
  split
  · exact ⟨rfl, rfl, rfl⟩
  · split_ifs <;> exact ⟨rfl, rfl, rfl⟩

theorem probeFunc_same (s : IrqState c H) (caller : IrqCaller) (i : ℕ) (pending : UInt8)
    (count : ℕ) (ret : ℤ) : SameRegs s (probeFunc s caller i pending count ret) := by
  unfold probeFunc
  split_ifs
  · cases c.func? (i - 1) with
    | none => exact ⟨rfl, rfl, rfl⟩
    | some f => dsimp only; split_ifs <;> exact ⟨rfl, rfl, rfl⟩
  all_goals exact ⟨rfl, rfl, rfl⟩

theorem leaveIrqs_same (s : IrqState c H) (caller : IrqCaller) :
    SameRegs s (leaveIrqs s caller) := by
  cases caller <;> exact ⟨rfl, rfl, rfl⟩

theorem none_notMem_append {calls : List (Option H)} {h : Option H} (hcalls : none ∉ calls)
    (hh : h.isSome) : none ∉ calls ++ [h] := by
  rintro hmem
  rcases List.mem_append.mp hmem with hmem | hmem
  · exact hcalls hmem
  · rw [← List.mem_singleton.mp hmem] at hh
    exact absurd hh (by simp)

/-- The shortcut trusts the cached function, which has a handler. -/
theorem processSdioPendingIrqs_called {s : IrqState c H} (hs : Cached s)
    (hcalled : none ∉ s.called) (caller : IrqCaller) (readRet : ℤ) (pending : UInt8) :
    none ∉ (processSdioPendingIrqs s caller readRet pending).called := by
  unfold processSdioPendingIrqs
  split
  next f _ hsingle =>
    exact none_notMem_append hcalled (singleIrq_eq_some (hs.symm.trans hsingle)).2.2
  · split_ifs <;> exact hcalled

theorem probeFunc_called {s : IrqState c H} (hcalled : none ∉ s.called) (caller : IrqCaller)
    (i : ℕ) (pending : UInt8) (count : ℕ) (ret : ℤ) :
    none ∉ (probeFunc s caller i pending count ret).called := by
  unfold probeFunc
  split_ifs
  · cases c.func? (i - 1) with
    | none => exact hcalled
    | some f =>
      dsimp only
      split_ifs with hset
      · exact none_notMem_append hcalled hset
      · exact hcalled
  all_goals exact hcalled

/-! ### Steps -/

/-- What an action does to the registrations. -/
inductive RegStep (s : IrqState c H) : IrqAction c H → IrqState c H → Prop
  | same {a s'} (hsame : SameRegs s s') (hclaim : ∀ f, ¬ClaimedBy f s a)
      (hrelease : ∀ f, ReleasedBy f a → s.irqHandler f = none) : RegStep s a s'
  | claim {f handler io threadErr s'} (hfree : s.irqHandler f = none)
      (hret : (sdioClaimIrq s (some f) handler io threadErr).2 = 0)
      (hhandler : s'.irqHandler = Function.update s.irqHandler f handler)
      (hirqs : s'.sdioIrqs = wrapAdd 32 s.sdioIrqs 1) (hcached : Cached s') :
      RegStep s (.claim (some f) handler io threadErr) s'
  | release {f io s'} (hset : (s.irqHandler f).isSome)
      (hhandler : s'.irqHandler = Function.update s.irqHandler f none)
      (hirqs : s'.sdioIrqs = s.sdioIrqs - 1) (hcached : Cached s') :
      RegStep s (.release (some f) io) s'

theorem RegStep.of_same {s s' : IrqState c H} {a : IrqAction c H} (hsame : SameRegs s s')
    (hclaim : ∀ f, ¬ClaimedBy f s a) (hrelease : ∀ f, ¬ReleasedBy f a) : RegStep s a s' :=
  .same hsame hclaim fun f hf => absurd hf (hrelease f)

/-- **One step.** Only a claim that succeeds and the release of a handler change the
registrations. -/
theorem IrqState.next_regs {s s' : IrqState c H} {a : IrqAction c H} (hs : Cached s)
    (hnext : s.next a = some s') : RegStep s a s' := by
  cases a with
  | claim func handler io threadErr =>
    obtain rfl := Option.some.inj hnext
    rcases sdioClaimIrq_cases hs func handler io threadErr with
      ⟨hret, hsame⟩ | ⟨f, rfl, hfree, hret, hhandler, hirqs, hcached⟩
    · exact .of_same hsame (fun f hf => hret hf.2.2) (fun f hf => hf)
    · exact .claim hfree hret hhandler hirqs hcached
  | release func io =>
    obtain rfl := Option.some.inj hnext
    rcases sdioReleaseIrq_cases s func io with
      ⟨hsame, hnone⟩ | ⟨f, rfl, hset, hhandler, hirqs, hcached⟩
    · exact .same hsame (fun f hf => hf) hnone
    · exact .release hset hhandler hirqs hcached
  | signal =>
    obtain rfl := Option.some.inj hnext
    exact .of_same ⟨rfl, rfl, rfl⟩ (fun f hf => hf) (fun f hf => hf)
  | enter caller readRet pending =>
    refine .of_same ?_ (fun f hf => hf) (fun f hf => hf)
    cases caller with
    | work =>
      simp only [IrqState.next] at hnext
      split_ifs at hnext
      · obtain rfl := Option.some.inj hnext
        obtain ⟨hhandler, hirqs, hsingle⟩ := processSdioPendingIrqs_same
          { s with sdioIrqPending := true } .work readRet pending
        exact ⟨hhandler, hirqs, hsingle⟩
      · obtain rfl := Option.some.inj hnext
        exact .refl s
    | thread =>
      simp only [IrqState.next] at hnext
      split_ifs at hnext
      obtain rfl := Option.some.inj hnext
      exact processSdioPendingIrqs_same s .thread readRet pending
  | step =>
    refine .of_same ?_ (fun f hf => hf) (fun f hf => hf)
    simp only [IrqState.next] at hnext
    cases hpc : s.pc with
    | idle => simp [hpc] at hnext
    | probe caller i pending count ret =>
      rw [hpc] at hnext
      obtain rfl := Option.some.inj hnext
      exact probeFunc_same s caller i pending count ret
    | leave caller ret =>
      rw [hpc] at hnext
      obtain rfl := Option.some.inj hnext
      exact leaveIrqs_same s caller

theorem RegStep.cached {s s' : IrqState c H} {a : IrqAction c H} (h : RegStep s a s')
    (hs : Cached s) : Cached s' := by
  cases h with
  | same hsame _ _ => exact hs.of_same hsame
  | claim _ _ _ _ hcached => exact hcached
  | release _ _ _ hcached => exact hcached

theorem IrqState.next_called {s s' : IrqState c H} {a : IrqAction c H} (hs : Cached s)
    (hcalled : none ∉ s.called) (hnext : s.next a = some s') : none ∉ s'.called := by
  cases a with
  | claim func handler io threadErr =>
    obtain rfl := Option.some.inj hnext
    rwa [sdioClaimIrq_called]
  | release func io =>
    obtain rfl := Option.some.inj hnext
    rwa [sdioReleaseIrq_called]
  | signal =>
    obtain rfl := Option.some.inj hnext
    exact hcalled
  | enter caller readRet pending =>
    cases caller with
    | work =>
      simp only [IrqState.next] at hnext
      split_ifs at hnext
      · obtain rfl := Option.some.inj hnext
        exact processSdioPendingIrqs_called (s := { s with sdioIrqPending := true }) hs hcalled
          .work readRet pending
      · obtain rfl := Option.some.inj hnext
        exact hcalled
    | thread =>
      simp only [IrqState.next] at hnext
      split_ifs at hnext
      obtain rfl := Option.some.inj hnext
      exact processSdioPendingIrqs_called hs hcalled .thread readRet pending
  | step =>
    simp only [IrqState.next] at hnext
    cases hpc : s.pc with
    | idle => simp [hpc] at hnext
    | probe caller i pending count ret =>
      rw [hpc] at hnext
      obtain rfl := Option.some.inj hnext
      exact probeFunc_called hcalled caller i pending count ret
    | leave caller ret =>
      rw [hpc] at hnext
      obtain rfl := Option.some.inj hnext
      cases caller <;> exact hcalled

/-! ### Runs -/

variable {s : IrqState c H} {as : List (IrqAction c H)}

/-- The cached function is up to date, and no `NULL` handler was called. -/
theorem irqSystem_invariant (hs : (irqSystem c H).Reachable s) : Cached s ∧ none ∉ s.called := by
  refine (irqSystem c H).invariant (I := fun s => Cached s ∧ none ∉ s.called) ⟨?_, ?_⟩ ?_ hs
  · exact (if_neg fun h => absurd (show (0 : ℕ) = 1 from h.2) (by decide)).symm
  · exact List.not_mem_nil
  · rintro u a v ⟨hu, hcalled⟩ hnext
    exact ⟨(IrqState.next_regs hu hnext).cached hu, IrqState.next_called hu hcalled hnext⟩

/-- **No `NULL` handler.** Whatever the drivers claim and release, the interrupt path calls
handlers that are set. -/
theorem irqSystem_calls_handlers (hrun : (irqSystem c H).run as = some s) : none ∉ s.called :=
  (irqSystem_invariant ⟨as, hrun⟩).2

theorem RegStep.counted {s s' : IrqState c H} {a : IrqAction c H} (h : RegStep s a s')
    (hgives : a.GivesHandler) (hs : s.sdioIrqs = handlerCount s.irqHandler) :
    s'.sdioIrqs = handlerCount s'.irqHandler := by
  cases h with
  | same hsame _ _ => rw [hsame.irqs, hsame.handler, hs]
  | claim hfree _ hhandler hirqs _ =>
    have hle := handlerCount_le s.irqHandler
    rw [hirqs, hhandler, handlerCount_update_some hfree hgives, hs, wrapAdd_of_lt (by omega)]
  | release hset hhandler hirqs _ =>
    rw [hirqs, hhandler, hs, ← handlerCount_update_none hset, Nat.add_sub_cancel]

/-- The handlers are counted if every claim gives one. -/
theorem irqSystem_counted (hrun : (irqSystem c H).run as = some s)
    (hgives : ∀ a ∈ as, a.GivesHandler) : s.sdioIrqs = handlerCount s.irqHandler := by
  refine ((irqSystem c H).invariant_of_obeys (C := fun _ a => a.GivesHandler)
    (I := fun s => Cached s ∧ s.sdioIrqs = handlerCount s.irqHandler) ?_ ⟨?_, ?_⟩
    ((irqSystem c H).obeys_of_forall (fun a ha _ => hgives a ha) _) hrun).2
  · rintro u a v ⟨hu, hcount⟩ ha hnext
    have hstep := IrqState.next_regs hu hnext
    exact ⟨hstep.cached hu, hstep.counted ha hcount⟩
  · exact (irqSystem_invariant ⟨[], rfl⟩).1
  · simp [irqSystem, IrqState.fresh, handlerCount]

/-- A handler is set exactly if a claim of the function succeeded that it was not released
since. -/
theorem irqSystem_handler_iff (hrun : (irqSystem c H).run as = some s) (f : c.Func) :
    (s.irqHandler f).isSome ↔
      (irqSystem c H).ArmedSince (ClaimedBy f) (ReleasedBy f) as := by
  constructor
  · refine (irqSystem c H).armedSince_of_flag (fun s => (s.irqHandler f).isSome)
      (Bool.false_ne_true) ?_ hrun
    intro u a v hu hnext hflag
    cases IrqState.next_regs (irqSystem_invariant hu).1 hnext with
    | same hsame _ hrelease =>
      rw [hsame.handler] at hflag
      refine .inr ⟨hflag, fun hf => ?_⟩
      rw [hrelease f hf] at hflag
      exact Bool.false_ne_true hflag
    | @claim g handler io threadErr _ hfree hret hhandler _ _ =>
      rw [hhandler] at hflag
      by_cases hfg : f = g
      · subst hfg
        rw [Function.update_self] at hflag
        exact .inl ⟨rfl, hflag, hret⟩
      · rw [Function.update_of_ne hfg] at hflag
        exact .inr ⟨hflag, fun hf => hf⟩
    | @release g io _ hset hhandler _ _ =>
      rw [hhandler] at hflag
      by_cases hfg : f = g
      · subst hfg
        rw [Function.update_self] at hflag
        exact absurd hflag Bool.false_ne_true
      · rw [Function.update_of_ne hfg] at hflag
        exact .inr ⟨hflag, fun hf => hfg (Option.some.inj hf).symm⟩
  · refine (irqSystem c H).flag_of_armedSince (fun s => (s.irqHandler f).isSome) ?_ ?_ hrun
    · intro u a v hu hnext harm
      cases IrqState.next_regs (irqSystem_invariant hu).1 hnext with
      | same _ hclaim _ => exact absurd harm (hclaim f)
      | claim _ _ hhandler _ _ =>
        obtain ⟨hfg, hsome, -⟩ := harm
        obtain rfl := Option.some.inj hfg
        rwa [hhandler, Function.update_self]
      | release _ _ _ _ => exact harm.elim
    · intro u a v hu hnext hflag hkeep
      cases IrqState.next_regs (irqSystem_invariant hu).1 hnext with
      | same hsame _ _ => rwa [hsame.handler]
      | @claim g handler io threadErr _ hfree _ hhandler _ _ =>
        have hfg : f ≠ g := by
          rintro rfl
          rw [hfree] at hflag
          exact Bool.false_ne_true hflag
        rwa [hhandler, Function.update_of_ne hfg]
      | @release g io _ _ hhandler _ _ =>
        have hfg : f ≠ g := fun hfg => hkeep (congrArg some hfg.symm)
        rwa [hhandler, Function.update_of_ne hfg]

/-- **Consistent registrations.** After every run a handler is set exactly if a claim of its
function succeeded that was not released since, and no `NULL` handler was ever called. If every
claim gives a handler, the host counts the functions with a handler, and the card caches the only
one, if there is only one and the host signals interrupts. -/
theorem irqSystem_consistent (hrun : (irqSystem c H).run as = some s) :
    (∀ f, (s.irqHandler f).isSome ↔
        (irqSystem c H).ArmedSince (ClaimedBy f) (ReleasedBy f) as) ∧
      none ∉ s.called ∧
      ((∀ a ∈ as, a.GivesHandler) →
        s.sdioIrqs = handlerCount s.irqHandler ∧
          ∀ f, s.sdioSingleIrq = some f ↔
            c.capSdioIrq = true ∧ ∀ g, (s.irqHandler g).isSome ↔ g = f) := by
  refine ⟨irqSystem_handler_iff hrun, irqSystem_calls_handlers hrun, fun hgives => ?_⟩
  have hcount := irqSystem_counted hrun hgives
  refine ⟨hcount, fun f => ?_⟩
  rw [(irqSystem_invariant ⟨as, hrun⟩).1, hcount]
  exact singleIrq_handlerCount s.irqHandler f

/-- A card with two functions, on a host that signals its interrupts. -/
def twoFuncCard : IrqCard where
  capSdioIrq := true
  irqNothread := false
  sdioFuncs := 2
  sdioFunc i := decide (i.1 < 2)
  counted _ h := of_decide_eq_true h

/-- The functions of `twoFuncCard`. -/
def twoFuncCard.func (i : Fin 2) : twoFuncCard.Func := ⟨⟨i.1, by omega⟩, decide_eq_true i.2⟩

/-- Accesses to `SDIO_CCCR_IENx` that succeed. -/
def IenxIo.ok : IenxIo where
  readRet := 0
  reg := 0
  writeRet := 0

/-- Both functions claim their interrupts, the second one after a read that fails; then the first
one releases its interrupt, although the write to the card fails. -/
def claimsAndRelease : List (IrqAction twoFuncCard ℕ) :=
  [.claim (some (twoFuncCard.func 0)) (some 10) .ok 0,
    .claim (some (twoFuncCard.func 1)) (some 11) { IenxIo.ok with readRet := -eio } 0,
    .claim (some (twoFuncCard.func 1)) (some 11) .ok 0,
    .release (some (twoFuncCard.func 0)) { IenxIo.ok with writeRet := -eio }]

theorem irqSystem_consistent_claimsAndRelease :
    ∃ s, (irqSystem twoFuncCard ℕ).run claimsAndRelease = some s ∧
      s.sdioIrqs = handlerCount s.irqHandler ∧ none ∉ s.called ∧
      s.sdioSingleIrq = some (twoFuncCard.func 1) := by
  have hgives : ∀ a ∈ claimsAndRelease, a.GivesHandler := by
    simp [claimsAndRelease, IrqAction.GivesHandler]
  obtain ⟨s, hrun⟩ : ∃ s, (irqSystem twoFuncCard ℕ).run claimsAndRelease = some s := ⟨_, rfl⟩
  obtain ⟨-, hcalled, hregs⟩ := irqSystem_consistent hrun
  obtain rfl := Option.some.inj hrun
  exact ⟨_, rfl, (hregs hgives).1, hcalled, rfl⟩

/-- The action is a call for the function. -/
def CallFor (f : c.Func) : IrqAction c H → Prop
  | .claim func _ _ _ => func = some f
  | .release func _ => func = some f
  | _ => False

/-- A second claim, which fails with `-EBUSY`. -/
def claimTwice : List (IrqAction twoFuncCard ℕ) :=
  [.claim (some (twoFuncCard.func 0)) (some 10) .ok 0,
    .claim (some (twoFuncCard.func 0)) (some 11) .ok 0]

/-- A claim that gives no handler. -/
def claimNull : List (IrqAction twoFuncCard ℕ) :=
  [.claim (some (twoFuncCard.func 0)) none .ok 0]

/-- The last claim of a function with a handler may have failed, as a claim of a function that has
one is refused. And a claim that gives no handler is counted. -/
theorem sdioClaimIrq_busy_keeps_handler :
    (¬∀ s : IrqState twoFuncCard ℕ, (irqSystem twoFuncCard ℕ).run claimTwice = some s →
      ((s.irqHandler (twoFuncCard.func 0)).isSome ↔
        (irqSystem twoFuncCard ℕ).ArmedSince (ClaimedBy (twoFuncCard.func 0))
          (CallFor (twoFuncCard.func 0)) claimTwice)) ∧
      ¬∀ s : IrqState twoFuncCard ℕ, (irqSystem twoFuncCard ℕ).run claimNull = some s →
        s.sdioIrqs = handlerCount s.irqHandler := by
  constructor
  · intro h
    obtain ⟨pre, a, post, u, heq, hpre, harm, hpost⟩ := (h _ rfl).mp rfl
    rcases pre with _ | ⟨b, _ | ⟨b', pre⟩⟩
    · obtain ⟨rfl, rfl⟩ := List.cons.inj heq
      exact hpost _ List.mem_cons_self rfl
    · obtain ⟨rfl, hrest⟩ := List.cons.inj heq
      obtain ⟨rfl, -⟩ := List.cons.inj hrest
      obtain rfl := Option.some.inj hpre
      exact absurd harm.2.2 (by decide)
    · have hlength := congrArg List.length heq
      simp [claimTwice] at hlength
  · intro h
    exact absurd (h _ rfl) (by decide)

end LinuxDriver.Sdio
