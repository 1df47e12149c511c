import LinuxDriver.Fifo.Conservation
import LinuxDriver.Fifo.Stretch

/-!
# The calls of a FIFO driver and what they return

The stretches of all calls on a device follow each other under its mutex: any number of tasks read
and write, sleep and come back from their sleep, in any order, and clear the device if the driver
lets them. Each return is recorded with the device before and after the stretch that it ends; the
stretches that end in a sleep change nothing, so that these two are what the call changed.

## Main definitions

* `CallReturn`: a call that returned.
* `Fifo.CallState`, `Fifo.CallAction`, `FifoDriver.calls`: the histories of calls.
* `CallReturn.Made`: the ways in which a driver returns.

## Main results

* `Fifo.calls_invariant`: in every history the device is within its array, and every return was
  made in one of these ways.
-/

namespace LinuxDriver

/-- A call that returned `ret`, with the device before and after, and the bytes `out` that it left
in the user buffer. -/
structure CallReturn where
  dir : Direction
  call : UserCall
  before : FifoDev
  after : FifoDev
  ret : ℤ
  out : List UInt8

namespace Fifo

/-- The device, the calls asleep in `schedule()`, and the calls that returned, the newest first. -/
structure CallState where
  dev : FifoDev
  waiting : ℕ → Option (Direction × UserCall)
  returned : List CallReturn

/-- Task `t` enters a call, comes back from `schedule()`, or clears the device. -/
inductive CallAction
  | call (t : ℕ) (d : Direction) (c : UserCall)
  | resume (t : ℕ) (signal : Bool)
  | clear (t : ℕ)

namespace CallState

variable (D : FifoDriver) (s : CallState) (t : ℕ) (d : Direction) (c : UserCall)

/-- One stretch of a call of task `t`. -/
def stretch : CallState :=
  let r := LinuxDriver.stretch D.layout d c s.dev
  match r.2 with
  | .sleep => { s with dev := r.1, waiting := Function.update s.waiting t (some (d, c)) }
  | .ret ret out =>
    { dev := r.1
      waiting := Function.update s.waiting t none
      returned := ⟨d, c, s.dev, r.1, (D.code d).result ret, out⟩ :: s.returned }

/-- A call of task `t` that found a signal pending after `schedule()`. -/
def interrupt : CallState :=
  { s with
    waiting := Function.update s.waiting t none
    returned := ⟨d, c, s.dev, s.dev, (D.code d).result (-erestartsys), []⟩ :: s.returned }

/-- The steps of the system. A task makes one call at a time. -/
def next : CallAction → Option CallState
  | .call t d c => if (s.waiting t).isNone then some (s.stretch D t d c) else none
  | .resume t signal =>
    match s.waiting t with
    | none => none
    | some (d, c) => some (if signal then s.interrupt D t d c else s.stretch D t d c)
  | .clear t =>
    if D.hasIoctl ∧ (s.waiting t).isNone then some { s with dev := s.dev.clear D.layout }
    else none

end CallState

end Fifo

open Fifo

/-- The histories of calls on one device, which is empty at first. -/
def FifoDriver.calls (D : FifoDriver) : Lts CallState CallAction where
  init := ⟨⟨0, fun _ => 0⟩, fun _ => none, []⟩
  next := CallState.next D

/-- The ways in which a driver returns: a stretch of the call ends, or the call is interrupted in
its sleep. -/
inductive CallReturn.Made (D : FifoDriver) (r : CallReturn) : Prop
  | stretch {raw : ℤ}
      (hstretch : stretch D.layout r.dir r.call r.before = (r.after, .ret raw r.out))
      (hret : r.ret = (D.code r.dir).result raw)
  | interrupt (hafter : r.after = r.before)
      (hret : r.ret = (D.code r.dir).result (-erestartsys))

namespace Fifo

variable {D : FifoDriver} {s s' : CallState} {a : CallAction}

/-- A stretch keeps the device within its array. -/
theorem len_stretch_le {L : FifoLayout} {dev : FifoDev} (hdev : dev.len ≤ L.size) (d : Direction)
    (c : UserCall) : (stretch L d c dev).1.len ≤ L.size := by
  cases hr : stretch L d c dev with
  | mk dev' e =>
    cases d with
    | read =>
      obtain ⟨rfl, -⟩ | ⟨rfl, -⟩ | ⟨n, hn, -, -, rfl, -⟩ := readStretch_cases hdev hr
      · exact hdev
      · exact hdev
      · exact (FifoDev.len_consume L hdev hn).trans_le ((Nat.sub_le ..).trans hdev)
    | write =>
      obtain ⟨rfl, -⟩ | ⟨hlen, -⟩ | ⟨n, hn, -, -, rfl, -⟩ := writeStretch_cases hdev hr
      · exact hdev
      · exact hlen.trans_le hdev
      · have hfit : dev.len + n ≤ L.size := by omega
        exact (FifoDev.len_produce L hfit).trans_le hfit

/-- What a step makes of the device and the returns: nothing, an empty device, or one return. -/
inductive CallEffect (D : FifoDriver) (s : CallState) : CallState → Prop
  | sleep {u : CallState} (hdev : u.dev = s.dev) (hreturned : u.returned = s.returned) :
      CallEffect D s u
  | clear {u : CallState} (hdev : u.dev = s.dev.clear D.layout)
      (hreturned : u.returned = s.returned) : CallEffect D s u
  | ret {u : CallState} (r : CallReturn) (hbefore : r.before = s.dev) (hdev : u.dev = r.after)
      (hreturned : u.returned = r :: s.returned) (hmade : r.Made D)
      (hlen : r.after.len ≤ D.layout.size) : CallEffect D s u

/-- A stretch that ends in a sleep leaves the device alone. -/
theorem dev_of_sleep {L : FifoLayout} {d : Direction} {c : UserCall} {dev : FifoDev}
    (hdev : dev.len ≤ L.size) (h : (stretch L d c dev).2 = .sleep) :
    (stretch L d c dev).1 = dev := by
  cases hr : stretch L d c dev with
  | mk dev' e =>
    rw [hr] at h
    obtain rfl : e = .sleep := h
    cases d with
    | read =>
      obtain ⟨rfl, -⟩ | ⟨-, r, -, -, hret⟩ | ⟨n, -, -, -, -, hret⟩ := readStretch_cases hdev hr
      · rfl
      · cases hret
      · cases hret
    | write =>
      obtain ⟨rfl, -⟩ | ⟨-, -, r, -, -, hret⟩ | ⟨n, -, -, -, -, hret⟩ := writeStretch_cases hdev hr
      · rfl
      · cases hret
      · cases hret

theorem callEffect_stretch (hs : s.dev.len ≤ D.layout.size) (t : ℕ) (d : Direction)
    (c : UserCall) : CallEffect D s (s.stretch D t d c) := by
  cases he : (stretch D.layout d c s.dev).2 with
  | sleep =>
    have hdev := dev_of_sleep hs he
    refine .sleep ?_ ?_
    · simp only [CallState.stretch, he, hdev]
    · simp only [CallState.stretch, he]
  | ret raw out =>
    refine .ret ⟨d, c, s.dev, (stretch D.layout d c s.dev).1, (D.code d).result raw, out⟩ rfl ?_ ?_
      (.stretch (Prod.ext rfl he) rfl) (len_stretch_le hs d c)
    · simp only [CallState.stretch, he]
    · simp only [CallState.stretch, he]

/-- **The steps of the calls.** -/
theorem callEffect_of_next (hs : s.dev.len ≤ D.layout.size) (h : s.next D a = some s') :
    CallEffect D s s' := by
  cases a with
  | call t d c =>
    simp only [CallState.next, Option.ite_none_right_eq_some, Option.some.injEq] at h
    obtain ⟨-, rfl⟩ := h
    exact callEffect_stretch hs t d c
  | resume t signal =>
    cases hwaiting : s.waiting t with
    | none => simp [CallState.next, hwaiting] at h
    | some p =>
      obtain ⟨d, c⟩ := p
      simp only [CallState.next, hwaiting, Option.some.injEq] at h
      obtain rfl := h
      cases signal with
      | false => exact callEffect_stretch hs t d c
      | true =>
        exact .ret ⟨d, c, s.dev, s.dev, (D.code d).result (-erestartsys), []⟩ rfl rfl rfl
          (.interrupt rfl rfl) hs
  | clear t =>
    simp only [CallState.next, Option.ite_none_right_eq_some, Option.some.injEq] at h
    obtain ⟨-, rfl⟩ := h
    exact .clear rfl rfl

/-- The invariant of the histories. -/
structure CallInv (D : FifoDriver) (s : CallState) : Prop where
  len_le : s.dev.len ≤ D.layout.size
  returned : ∀ r ∈ s.returned, r.before.len ≤ D.layout.size ∧ r.Made D

theorem CallInv.next (hs : CallInv D s) (h : s.next D a = some s') : CallInv D s' := by
  cases callEffect_of_next hs.len_le h with
  | sleep hdev hreturned => exact ⟨hdev ▸ hs.len_le, hreturned ▸ hs.returned⟩
  | clear hdev hreturned => exact ⟨hdev ▸ Nat.zero_le _, hreturned ▸ hs.returned⟩
  | ret r hbefore hdev hreturned hmade hlen =>
    refine ⟨hdev ▸ hlen, fun r' hr' => ?_⟩
    rw [hreturned] at hr'
    obtain rfl | hr' := List.mem_cons.mp hr'
    · exact ⟨hbefore ▸ hs.len_le, hmade⟩
    · exact hs.returned r' hr'

/-- **The histories of calls.** -/
theorem calls_invariant (hs : D.calls.Reachable s) : CallInv D s :=
  D.calls.invariant (I := CallInv D)
    ⟨Nat.zero_le _, fun _ hr => absurd hr List.not_mem_nil⟩ (fun _ _ _ hs h => hs.next h) hs

end Fifo

end LinuxDriver
