import LinuxDriver.Fifo.Stretch

/-!
# The byte stream of the globalfifo device

Any number of tasks read from, write to and clear one globalfifo device
(`rasp-driver/globalfifo/globalfifo.c`). A step of the system is the stretch of a call between two
operations on `dev->mutex`, the return of a sleeper that finds a signal pending, or an `ioctl`.
A task that went to sleep in `schedule()` may come back at any time, with or without a signal.

The system is simulated by the bounded queue of `LinuxDriver.BoundedQueue`: a read that returns
`n` is a `pop` of `n` bytes, a write that returns `n` is a `push` of the first `n` bytes of its
buffer, `FIFO_CLEAR` empties the queue, and every other step is none at all. The law of the queue
is then the law of the device (`globalfifo_stream`).

## Main definitions

* `globalfifoLayout`, `globalfifoRead`, `globalfifoWrite`, `globalfifoIoctl`.
* `globalfifoStream`: the system of all tasks; its log records every return, newest first.
* `deliveredSince`, `acceptedSince`: the two streams determined by a log.

## Main results

* `globalfifoSimulation`: the refinement of the bounded queue.
* `globalfifo_stream`.
-/

namespace LinuxDriver

/-- `GLOBALFIFO_SIZE`. -/
def globalfifoSize : ℕ := 0x1000

/-- `unsigned int current_len`, `unsigned char mem[GLOBALFIFO_SIZE]`, `size_t count`. -/
def globalfifoLayout : FifoLayout where
  size := globalfifoSize
  lenBits := 32
  countBits := 64
  size_lt_len := by decide
  size_lt_int := by decide
  le_countBits := by decide

/-- `globalfifo_read` from the test of its loop on, with the mutex held. -/
def globalfifoRead : UserCall → FifoDev → FifoDev × Stretch := readStretch globalfifoLayout

/-- `globalfifo_write` from the test of its loop on, with the mutex held. -/
def globalfifoWrite : UserCall → FifoDev → FifoDev × Stretch := writeStretch globalfifoLayout

/-- `globalfifo_ioctl`: only `FIFO_CLEAR` is a valid command. -/
def globalfifoIoctl (cmd : ℕ) (dev : FifoDev) : FifoDev × ℤ :=
  if cmd = fifoClear then (dev.clear globalfifoLayout, 0) else (dev, -einval)

namespace GlobalFifo

/-! ### Tasks and their calls -/

/-- The return of a call of task `t`. A read delivers the bytes `out` to the user buffer; a write
was given the user buffer `buf`. -/
inductive Event
  | read (t : ℕ) (ret : ℤ) (out : List UInt8)
  | write (t : ℕ) (buf : Buffer UInt8) (ret : ℤ)
  | ioctl (t : ℕ) (cmd : ℕ) (ret : ℤ)

/-- The value a call returned. -/
def Event.ret : Event → ℤ
  | .read _ ret _ => ret
  | .write _ _ ret => ret
  | .ioctl _ _ ret => ret

/-- The bytes delivered by the successful reads since the last `FIFO_CLEAR`. -/
def deliveredSince : List Event → List UInt8
  | [] => []
  | .read _ ret out :: log => deliveredSince log ++ if 0 ≤ ret then out else []
  | .write .. :: log => deliveredSince log
  | .ioctl _ cmd _ :: log => if cmd = fifoClear then [] else deliveredSince log

/-- The prefixes accepted by the successful writes since the last `FIFO_CLEAR`: of each buffer as
many bytes as the write returned. -/
def acceptedSince : List Event → List UInt8
  | [] => []
  | .read .. :: log => acceptedSince log
  | .write _ buf ret :: log => acceptedSince log ++ if 0 ≤ ret then buf.load 0 ret.toNat else []
  | .ioctl _ cmd _ :: log => if cmd = fifoClear then [] else acceptedSince log

/-- The device, the calls asleep in `schedule()`, and the log. -/
structure State where
  dev : FifoDev
  waiting : ℕ → Option (Direction × UserCall)
  log : List Event

/-- A step of task `t`: it enters a call, comes back from `schedule()`, or issues an `ioctl`. -/
inductive Action
  | call (t : ℕ) (d : Direction) (c : UserCall)
  | resume (t : ℕ) (signal : Bool)
  | ioctl (t : ℕ) (cmd : ℕ)

/-- The entry of the log for a return of a call. -/
def event (t : ℕ) (d : Direction) (c : UserCall) (ret : ℤ) (out : List UInt8) : Event :=
  match d with
  | .read => .read t ret out
  | .write => .write t c.buf ret

/-- One stretch of a call of task `t`. -/
def State.stretch (s : State) (t : ℕ) (d : Direction) (c : UserCall) : State :=
  let r := match d with
    | .read => globalfifoRead c s.dev
    | .write => globalfifoWrite c s.dev
  match r.2 with
  | .sleep => { s with dev := r.1, waiting := Function.update s.waiting t (some (d, c)) }
  | .ret ret out =>
    { dev := r.1
      waiting := Function.update s.waiting t none
      log := event t d c ret out :: s.log }

/-- A call of task `t` that found a signal pending after `schedule()`. -/
def State.interrupt (s : State) (t : ℕ) (d : Direction) (c : UserCall) : State :=
  { s with
    waiting := Function.update s.waiting t none
    log := event t d c (-erestartsys) [] :: s.log }

/-- One `ioctl` of task `t`. -/
def State.ioctl (s : State) (t : ℕ) (cmd : ℕ) : State :=
  { s with
    dev := (globalfifoIoctl cmd s.dev).1
    log := .ioctl t cmd (globalfifoIoctl cmd s.dev).2 :: s.log }

/-- The steps of the system. A task makes one call at a time. -/
def State.next (s : State) : Action → Option State
  | .call t d c => if (s.waiting t).isNone then some (s.stretch t d c) else none
  | .resume t signal =>
    match s.waiting t with
    | none => none
    | some (d, c) => some (if signal then s.interrupt t d c else s.stretch t d c)
  | .ioctl t cmd => if (s.waiting t).isNone then some (s.ioctl t cmd) else none

end GlobalFifo

open GlobalFifo

/-- All tasks on one globalfifo device, which `devm_kzalloc` leaves zeroed and empty. -/
def globalfifoStream : Lts GlobalFifo.State GlobalFifo.Action where
  init := ⟨⟨0, fun _ => 0⟩, fun _ => none, []⟩
  next := State.next

namespace GlobalFifo

/-! ### What a step can do -/

/-- What a step makes of the device and the log: nothing, or one return. -/
inductive Effect (dev : FifoDev) (log : List Event) : FifoDev → List Event → Prop
  | sleep : Effect dev log dev log
  | fail {dev' : FifoDev} {e : Event} (hlen : dev'.len = dev.len)
      (hcontent : dev'.content = dev.content) (hret : e.ret < 0)
      (hclear : ∀ t r, e ≠ .ioctl t fifoClear r) : Effect dev log dev' (e :: log)
  | read (t : ℕ) {n : ℕ} (hn : n ≤ dev.len) :
      Effect dev log ((dev.shiftDown globalfifoLayout n).consume globalfifoLayout n)
        (.read t n (dev.content.take n) :: log)
  | write (t : ℕ) (buf : Buffer UInt8) {n : ℕ} (hn : n ≤ globalfifoSize - dev.len) :
      Effect dev log ((dev.fill buf n).produce globalfifoLayout n) (.write t buf n :: log)
  | clear (t : ℕ) :
      Effect dev log (dev.clear globalfifoLayout) (.ioctl t fifoClear 0 :: log)

variable {s s' : State}

/-- A call that returns a negative value and leaves the bytes held alone. -/
theorem Effect.fail_event {dev dev' : FifoDev} {log : List Event} (hlen : dev'.len = dev.len)
    (hcontent : dev'.content = dev.content) (t : ℕ) (d : Direction) (c : UserCall) {r : ℤ}
    (hr : r < 0) (out : List UInt8) : Effect dev log dev' (event t d c r out :: log) := by
  cases d with
  | read => exact .fail hlen hcontent hr fun _ _ h => by cases h
  | write => exact .fail hlen hcontent hr fun _ _ h => by cases h

theorem effect_stretch (hdev : s.dev.len ≤ globalfifoSize) (t : ℕ) (d : Direction)
    (c : UserCall) : Effect s.dev s.log (s.stretch t d c).dev (s.stretch t d c).log := by
  cases d with
  | read =>
    cases hr : globalfifoRead c s.dev with
    | mk dev e =>
      rcases readStretch_cases (L := globalfifoLayout) hdev hr with
        ⟨rfl, rfl, -, -⟩ | ⟨rfl, r, hneg, -, rfl⟩ | ⟨n, hn, -, -, rfl, rfl⟩
      · simpa only [State.stretch, hr] using Effect.sleep
      · simpa only [State.stretch, hr] using Effect.fail_event rfl rfl t .read c hneg []
      · simpa only [State.stretch, hr, event] using Effect.read t hn
  | write =>
    cases hr : globalfifoWrite c s.dev with
    | mk dev e =>
      rcases writeStretch_cases (L := globalfifoLayout) hdev hr with
        ⟨rfl, rfl, -, -⟩ | ⟨hlen, hcontent, r, hneg, -, rfl⟩ | ⟨n, hn, -, -, rfl, rfl⟩
      · simpa only [State.stretch, hr] using Effect.sleep
      · simpa only [State.stretch, hr] using
          Effect.fail_event hlen hcontent t .write c hneg []
      · simpa only [State.stretch, hr, event] using Effect.write t c.buf hn

theorem effect_ioctl (t cmd : ℕ) :
    Effect s.dev s.log (s.ioctl t cmd).dev (s.ioctl t cmd).log := by
  by_cases hcmd : cmd = fifoClear
  · subst hcmd
    exact Effect.clear t
  · simp only [State.ioctl, globalfifoIoctl, if_neg hcmd]
    refine Effect.fail rfl rfl (neg_neg_of_pos (by decide : 0 < einval)) fun t' r h => ?_
    injection h with _ h _
    exact hcmd h

/-- **The steps of the system.** Every step, of whichever task, has one of the five effects. -/
theorem effect_of_next (hdev : s.dev.len ≤ globalfifoSize) {a : Action}
    (h : s.next a = some s') : Effect s.dev s.log s'.dev s'.log := by
  cases a with
  | call t d c =>
    simp only [State.next, Option.ite_none_right_eq_some, Option.some.injEq] at h
    obtain ⟨-, rfl⟩ := h
    exact effect_stretch hdev t d c
  | resume t signal =>
    simp only [State.next] at h
    split at h
    · cases h
    · rename_i d c _
      obtain rfl := Option.some.inj h
      cases signal
      · exact effect_stretch hdev t d c
      · exact Effect.fail_event rfl rfl t d c (by decide) []
  | ioctl t cmd =>
    simp only [State.next, Option.ite_none_right_eq_some, Option.some.injEq] at h
    obtain ⟨-, rfl⟩ := h
    exact effect_ioctl t cmd

/-! ### The simulation by the bounded queue -/

/-- Each successful read in the log delivered as many bytes as it returned. -/
def ReadsCounted (log : List Event) : Prop :=
  ∀ t ret out, Event.read t ret out ∈ log → 0 ≤ ret → (out.length : ℤ) = ret

/-- The device holds the queue, and the log determines its streams. -/
def Refines (dev : FifoDev) (log : List Event) (q : Ledger UInt8 globalfifoSize) : Prop :=
  (∃ hdev : dev.len ≤ globalfifoSize, q.queue = dev.toQueue globalfifoLayout hdev) ∧
  poppedSince q.history = deliveredSince log ∧
  pushedSince q.history = acceptedSince log ∧ ReadsCounted log

/-- A failed call adds nothing to the streams. -/
theorem streams_of_ret_neg {e : Event} (hret : e.ret < 0)
    (hclear : ∀ t r, e ≠ .ioctl t fifoClear r) (log : List Event) :
    deliveredSince (e :: log) = deliveredSince log ∧
      acceptedSince (e :: log) = acceptedSince log := by
  cases e with
  | read t ret out =>
    have hneg : ¬0 ≤ ret := not_le.mpr hret
    simp [deliveredSince, acceptedSince, hneg]
  | write t buf ret =>
    have hneg : ¬0 ≤ ret := not_le.mpr hret
    simp [deliveredSince, acceptedSince, hneg]
  | ioctl t cmd r =>
    have hcmd : cmd ≠ fifoClear := fun h => hclear t r (by rw [h])
    simp [deliveredSince, acceptedSince, hcmd]

theorem ReadsCounted.cons {log : List Event} (h : ReadsCounted log) {e : Event}
    (he : ∀ t ret out, e = .read t ret out → 0 ≤ ret → (out.length : ℤ) = ret) :
    ReadsCounted (e :: log) := by
  intro t ret out hmem hret
  rcases List.mem_cons.mp hmem with heq | hmem
  · exact he t ret out heq.symm hret
  · exact h t ret out hmem hret

/-- Every effect of a step is matched by at most one operation of the queue. -/
theorem Refines.effect {dev dev' : FifoDev} {log log' : List Event}
    {q : Ledger UInt8 globalfifoSize} (hq : Refines dev log q)
    (h : Effect dev log dev' log') :
    ∃ ops q', (queueSystem UInt8 globalfifoSize).runFrom q ops = some q' ∧
      Refines dev' log' q' := by
  obtain ⟨⟨hdev, hqueue⟩, hpop, hpush, hcount⟩ := hq
  cases h with
  | sleep => exact ⟨[], q, rfl, ⟨hdev, hqueue⟩, hpop, hpush, hcount⟩
  | fail hlen hcontent hret hclear =>
    obtain ⟨hdel, hacc⟩ := streams_of_ret_neg hret hclear log
    refine ⟨[], q, rfl, ⟨hlen.trans_le hdev, ?_⟩, hpop.trans hdel.symm, hpush.trans hacc.symm, ?_⟩
    · exact hqueue.trans (BoundedQueue.ext hcontent.symm)
    · refine hcount.cons fun t ret out he hnn => absurd hnn (not_le.mpr ?_)
      rwa [he] at hret
  | @read t n hn =>
    have hlen' : ((dev.shiftDown globalfifoLayout n).consume globalfifoLayout n).len =
        dev.len - n := FifoDev.len_consume globalfifoLayout hdev hn
    have hfit : ((dev.shiftDown globalfifoLayout n).consume globalfifoLayout n).len ≤
        globalfifoSize := hlen'.trans_le ((Nat.sub_le ..).trans hdev)
    refine ⟨[.pop n], _, rfl, ⟨hfit, ?_⟩, ?_, hpush, ?_⟩
    · simp only [Ledger.apply, hqueue]
      exact (FifoDev.toQueue_consume_shiftDown globalfifoLayout hdev hn hfit).symm
    · simp [Ledger.apply, poppedSince, deliveredSince, hpop, hqueue, FifoDev.toQueue]
    · refine hcount.cons fun t' ret out he _ => ?_
      injection he with _ hret hout
      rw [← hret, ← hout, List.length_take, FifoDev.length_content, Nat.min_eq_left hn]
  | @write t buf n hn =>
    have hsum : dev.len + n ≤ globalfifoSize := by omega
    have hlen' : ((dev.fill buf n).produce globalfifoLayout n).len = dev.len + n :=
      FifoDev.len_produce globalfifoLayout hsum
    have hfit : ((dev.fill buf n).produce globalfifoLayout n).len ≤ globalfifoSize :=
      hlen'.trans_le hsum
    have hacc : (dev.toQueue globalfifoLayout hdev).accepts (buf.load 0 n) = buf.load 0 n :=
      FifoDev.accepts_toQueue globalfifoLayout hdev hn
    refine ⟨[.push (buf.load 0 n)], _, rfl, ⟨hfit, ?_⟩, hpop, ?_, ?_⟩
    · simp only [Ledger.apply, hqueue]
      exact (FifoDev.toQueue_produce_fill globalfifoLayout hdev hn hfit).symm
    · simp only [Ledger.apply, pushedSince, acceptedSince, hpush, hqueue]
      rw [if_pos (Int.natCast_nonneg n), Int.toNat_natCast]
      exact congrArg (acceptedSince log ++ ·) hacc
    · exact hcount.cons fun t' ret out he _ => by cases he
  | clear t =>
    refine ⟨[.clear], _, rfl, ⟨Nat.zero_le _, ?_⟩, rfl, rfl, ?_⟩
    · exact (FifoDev.toQueue_clear globalfifoLayout (Nat.zero_le _)).symm
    · exact hcount.cons fun t' ret out he _ => by cases he

end GlobalFifo

/-- **Refinement of the bounded queue.** Every step of the tasks on a globalfifo device is at most
one operation of the queue that the device holds. -/
def globalfifoSimulation :
    Simulation globalfifoStream (queueSystem UInt8 globalfifoSize) fun _ _ => True where
  rel s q := Refines s.dev s.log q
  init := ⟨⟨Nat.zero_le _, BoundedQueue.ext rfl⟩, rfl, rfl, fun _ _ _ h => by cases h⟩
  step _ _ _ _ hq _ h := hq.effect (effect_of_next hq.1.1 h)

/-- **The byte stream of globalfifo.** In every state reached by any interleaving of any number
of tasks, the bytes held fit in the array; the bytes delivered by the successful reads since the
last `FIFO_CLEAR`, in the order of the mutex, followed by the bytes held are the prefixes accepted
by the successful writes since then, each as long as the write returned; and every read delivered
as many bytes as it returned. A further step that returns a negative value, or puts its task to
sleep, leaves the bytes held as they are. -/
theorem globalfifo_stream {as : List Action} {s : State} (hrun : globalfifoStream.run as = some s) :
    s.dev.len ≤ globalfifoSize ∧
    deliveredSince s.log ++ s.dev.memory.load 0 s.dev.len = acceptedSince s.log ∧
    (∀ t ret out, Event.read t ret out ∈ s.log → 0 ≤ ret → (out.length : ℤ) = ret) ∧
    ∀ a s', globalfifoStream.next s a = some s' →
      (s'.log = s.log ∨ ∃ e, s'.log = e :: s.log ∧ e.ret < 0) →
      s'.dev.len = s.dev.len ∧ s'.dev.memory.load 0 s'.dev.len = s.dev.memory.load 0 s.dev.len := by
  obtain ⟨q, hreach, ⟨hdev, hqueue⟩, hpop, hpush, hcount⟩ := globalfifoSimulation.exists_reachable
    (globalfifoStream.obeys_of_forall (fun _ _ _ => trivial) _) hrun
  have hlaw : poppedSince q.history ++ q.queue.content = pushedSince q.history :=
    queueSystem_law hreach
  rw [hqueue, hpop, hpush] at hlaw
  refine ⟨hdev, hlaw, hcount, fun a s' hnext hlog => ?_⟩
  have heff := effect_of_next hdev hnext
  generalize s'.log = log' at heff hlog
  generalize s'.dev = dev' at heff
  cases heff with
  | sleep => exact ⟨rfl, rfl⟩
  | fail hlen hcontent => exact ⟨hlen, hcontent⟩
  | read t hn => simp [Event.ret, not_lt.mpr (Int.natCast_nonneg _)] at hlog
  | write t buf hn => simp [Event.ret, not_lt.mpr (Int.natCast_nonneg _)] at hlog
  | clear t => simp [Event.ret] at hlog

/-- A reader sleeps on the empty device, a writer stores three bytes, and the reader takes two. -/
def globalfifoSampleRun : List Action :=
  [.call 1 .read ⟨false, 2, fun _ => 0, .copied⟩,
    .call 2 .write ⟨false, 3, fun i => UInt8.ofNat (i + 1), .copied⟩, .resume 1 false]

theorem globalfifo_stream_sample : ∃ s, globalfifoStream.run globalfifoSampleRun = some s ∧
    deliveredSince s.log = [1, 2] ∧ s.dev.len = 1 ∧
    deliveredSince s.log ++ s.dev.memory.load 0 s.dev.len = acceptedSince s.log := by
  have hrun : globalfifoStream.run globalfifoSampleRun = some _ := rfl
  exact ⟨_, hrun, by decide, by decide, (globalfifo_stream hrun).2.1⟩

end LinuxDriver
