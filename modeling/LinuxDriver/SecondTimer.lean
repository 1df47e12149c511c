import LinuxDriver.Kernel
import LinuxDriver.Lts

/-!
# The timer of the second device

All files of `second.c` share one timer, and its handler arms it again. `second_open` sets the timer
up and adds it, `second_release` deletes it and does not wait for the handler, and neither counts
the open files. Opens, releases, expiries and the steps of the handlers come in any order. Calls are
alike but for where they are, so the state counts them. A file is open from the `add_timer` of its
open to the `del_timer` of its release.

The timer wheel keeps a timer that is set up or added while it is pending, and what it does with it
then is not in the model: the misuse is recorded.

## Main definitions

* `Timer`, `timerSetup`, `addTimer`, `modTimer`, `delTimer`.
* `secondDevice`: the opens and releases of the device, its handlers, and the exit of the module.
* `TimerLifecycle`: the timer is never misused, and armed or being handled while a file is open.
* `KeepsTimer`: the condition on a step. `OneFile`: a discipline that implies it.

## Main results

* `always_timerLifecycle_iff`: which runs keep the lifecycle.
* `always_timerLifecycle_of_oneFile`: those of one file at a time, released between two handlers.
-/

namespace LinuxDriver

/-! ### Timers -/

/-- A `timer_list`: whether it is pending, and whether it was set up or added while it was. -/
structure Timer where
  pending : Bool
  misused : Bool
  deriving DecidableEq

/-- `timer_setup` -/
def timerSetup (t : Timer) : Timer := ⟨false, t.misused || t.pending⟩

/-- `add_timer` -/
def addTimer (t : Timer) : Timer := ⟨true, t.misused || t.pending⟩

/-- `mod_timer` -/
def modTimer (t : Timer) : Timer := ⟨true, t.misused⟩

/-- `del_timer`: whether the timer was pending. It may be called while the handler runs. -/
def delTimer (t : Timer) : ℤ × Timer := (if t.pending then 1 else 0, ⟨false, t.misused⟩)

/-- The expiry takes the timer off the wheel and starts its handler. -/
def Timer.expire (t : Timer) : Timer := ⟨false, t.misused⟩

/-- `second_release`: its value, and the timer after it. -/
def secondRelease (t : Timer) : ℤ × Timer :=
  let del := delTimer t
  (if del.1 < 0 then -efault else 0, del.2)

/-! ### The device -/

/-- The device, and how many calls are at each of their points: opens between `timer_setup` and
`add_timer`, opens between `add_timer` and `atomic_set`, open files, handlers between the expiry and
`mod_timer`, and handlers between `mod_timer` and `atomic_inc`. -/
structure SecondState where
  counter : ℤ
  timer : Timer
  setUp : ℕ
  added : ℕ
  opened : ℕ
  expired : ℕ
  rearmed : ℕ
  freed : Bool
  deriving DecidableEq

namespace SecondState

variable (s : SecondState)

/-- The number of files that are open. -/
def files : ℕ := s.added + s.opened

/-- The number of handlers that run. -/
def handlers : ℕ := s.expired + s.rearmed

end SecondState

/-- The steps of `second_open`, the one of `second_release`, the expiry of the timer, the steps of
`second_timer_handler`, and `second_exit`. -/
inductive SecondAction
  | setup
  | add
  | reset
  | release
  | expire
  | rearm
  | count
  | exit
  deriving DecidableEq

namespace SecondState

/-- When a step can be taken. The module cannot be removed during a call, nor while a file is
open. -/
def Enabled (s : SecondState) : SecondAction → Prop
  | .setup => s.freed = false
  | .add => 0 < s.setUp
  | .reset => 0 < s.added
  | .release => 0 < s.opened
  | .expire => s.timer.pending = true
  | .rearm => 0 < s.expired
  | .count => 0 < s.rearmed
  | .exit => s.freed = false ∧ s.setUp = 0 ∧ s.files = 0

instance (s : SecondState) : (a : SecondAction) → Decidable (s.Enabled a)
  | .setup | .expire => inferInstanceAs (Decidable (_ = _))
  | .add | .reset | .release | .rearm | .count => inferInstanceAs (Decidable (_ < _))
  | .exit => inferInstanceAs (Decidable (_ ∧ _))

/-- What a step does. -/
def after (s : SecondState) : SecondAction → SecondState
  | .setup => { s with timer := timerSetup s.timer, setUp := s.setUp + 1 }
  | .add => { s with timer := addTimer s.timer, setUp := s.setUp - 1, added := s.added + 1 }
  | .reset => { s with counter := 0, added := s.added - 1, opened := s.opened + 1 }
  | .release => { s with timer := (secondRelease s.timer).2, opened := s.opened - 1 }
  | .expire => { s with timer := s.timer.expire, expired := s.expired + 1 }
  | .rearm =>
    { s with timer := modTimer s.timer, expired := s.expired - 1, rearmed := s.rearmed + 1 }
  | .count => { s with counter := s.counter + 1, rearmed := s.rearmed - 1 }
  | .exit => { s with freed := true }

def next (s : SecondState) (a : SecondAction) : Option SecondState :=
  if s.Enabled a then some (s.after a) else none

theorem next_eq_some {s s' : SecondState} {a : SecondAction} :
    s.next a = some s' ↔ s.Enabled a ∧ s.after a = s' := by
  rw [next, Option.ite_none_right_eq_some, Option.some.injEq]

end SecondState

/-- The device after `second_init`. -/
def secondDevice : Lts SecondState SecondAction where
  init := ⟨0, ⟨false, false⟩, 0, 0, 0, 0, 0, false⟩
  next := SecondState.next

/-- The timer was never set up or added while it was pending, it is pending or its handler runs
exactly while a file is open, without either it cannot expire, and it can be neither pending nor
handled once the device is freed. -/
structure TimerLifecycle (s : SecondState) : Prop where
  used : s.timer.misused = false
  armed : s.timer.pending = true ∨ 0 < s.handlers ↔ 0 < s.files
  quiet : s.files = 0 → s.handlers = 0 → ¬s.Enabled .expire
  freed : s.freed = true → s.timer.pending = false ∧ s.handlers = 0

/-- An open must find the timer not pending, both when it sets it up and when it adds it. The last
release must not meet a handler, and any other must. A handler that ends must leave the timer
pending, unless another one runs. -/
def KeepsTimer (s : SecondState) : SecondAction → Prop
  | .setup | .add => s.timer.pending = false
  | .release => s.handlers = 0 ↔ s.files = 1
  | .count => s.timer.pending = true ∨ 1 < s.handlers
  | _ => True

instance (s : SecondState) : (a : SecondAction) → Decidable (KeepsTimer s a)
  | .setup | .add => inferInstanceAs (Decidable (_ = _))
  | .release => inferInstanceAs (Decidable (_ ↔ _))
  | .count => inferInstanceAs (Decidable (_ ∨ _))
  | .reset | .expire | .rearm | .exit => isTrue trivial

/-! ### One step -/

variable {s s' : SecondState} {a : SecondAction}

/-- No call is in progress and no file is open once the device is freed. -/
def Unused (s : SecondState) : Prop := s.freed = true → s.setUp = 0 ∧ s.files = 0

theorem Unused.next (hs : Unused s) (h : s.next a = some s') : Unused s' := by
  obtain ⟨hen, rfl⟩ := SecondState.next_eq_some.mp h
  intro hfreed
  cases a with
  | exit => exact hen.2
  | setup => exact absurd hfreed (by rw [show (s.after .setup).freed = s.freed from rfl, hen]; simp)
  | add | reset | release | expire | rearm | count =>
    have hold := hs hfreed
    simp only [SecondState.Enabled, SecondState.after, SecondState.files] at *
    omega

/-- The lifecycle of a device that is not freed. -/
theorem timerLifecycle_iff (hfreed : s.freed = false) :
    TimerLifecycle s ↔
      s.timer.misused = false ∧ (s.timer.pending = true ∨ 0 < s.handlers ↔ 0 < s.files) := by
  refine ⟨fun h => ⟨h.used, h.armed⟩, fun h => ⟨h.1, h.2, fun hfiles hhandlers hen => ?_, ?_⟩⟩
  · have : 0 < s.files := h.2.mp (.inl hen)
    omega
  · rw [hfreed]
    exact nofun

/-- After the exit of the module no step can be taken. -/
theorem TimerLifecycle.not_freed (h : TimerLifecycle s) (hs : Unused s) (hen : s.Enabled a) :
    s.freed = false := by
  by_contra hfreed
  rw [Bool.not_eq_false] at hfreed
  obtain ⟨hsetUp, hfiles⟩ := hs hfreed
  obtain ⟨hpending, hhandlers⟩ := h.freed hfreed
  rw [SecondState.files] at hfiles
  rw [SecondState.handlers] at hhandlers
  cases a with
  | setup => exact absurd (hfreed.symm.trans hen) nofun
  | exit => exact absurd (hfreed.symm.trans hen.1) nofun
  | expire => exact absurd (hpending.symm.trans hen) nofun
  | add | reset | release | rearm | count =>
    simp only [SecondState.Enabled] at hen
    omega

/-- **One step.** It keeps the lifecycle exactly when it meets the condition. -/
theorem timerLifecycle_next_iff (hs : Unused s) (h : TimerLifecycle s)
    (hnext : s.next a = some s') : TimerLifecycle s' ↔ KeepsTimer s a := by
  obtain ⟨hen, rfl⟩ := SecondState.next_eq_some.mp hnext
  have hfreed : s.freed = false := h.not_freed hs hen
  have hused : s.timer.misused = false := h.used
  have harmed := h.armed
  simp only [SecondState.handlers, SecondState.files] at harmed
  cases a with
  | exit =>
    refine iff_of_true ⟨hused, h.armed, h.quiet, fun _ => ?_⟩ trivial
    have hnone : ¬(s.timer.pending = true ∨ 0 < s.handlers) := by
      rw [h.armed, hen.2.2]
      exact lt_irrefl 0
    rw [not_or, Bool.not_eq_true, Nat.pos_iff_ne_zero, not_not] at hnone
    exact hnone
  | setup =>
    rw [timerLifecycle_iff (s := s.after .setup) hfreed]
    simp only [SecondState.after, timerSetup, KeepsTimer, SecondState.handlers,
      SecondState.files, hused, Bool.false_or]
    refine and_iff_left_of_imp fun hpending => ?_
    rwa [hpending] at harmed
  | add =>
    rw [timerLifecycle_iff (s := s.after .add) hfreed]
    simp only [SecondState.after, addTimer, KeepsTimer, SecondState.handlers,
      SecondState.files, hused, Bool.false_or]
    refine and_iff_left_of_imp fun _ => iff_of_true (.inl trivial) (by omega)
  | release =>
    rw [timerLifecycle_iff (s := s.after .release) hfreed]
    simp only [SecondState.Enabled] at hen
    simp only [SecondState.after, secondRelease, delTimer, KeepsTimer, SecondState.handlers,
      SecondState.files, hused, true_and, Bool.false_eq_true, false_or]
    omega
  | reset =>
    refine iff_of_true ((timerLifecycle_iff (s := s.after .reset) hfreed).mpr ⟨hused, ?_⟩) trivial
    simp only [SecondState.Enabled] at hen
    simp only [SecondState.after, SecondState.handlers, SecondState.files]
    rw [harmed]
    omega
  | expire =>
    refine iff_of_true ((timerLifecycle_iff (s := s.after .expire) hfreed).mpr ⟨hused, ?_⟩) trivial
    simp only [SecondState.after, SecondState.handlers, SecondState.files]
    exact iff_of_true (.inr (by omega)) (harmed.mp (.inl hen))
  | rearm =>
    refine iff_of_true ((timerLifecycle_iff (s := s.after .rearm) hfreed).mpr ⟨hused, ?_⟩) trivial
    simp only [SecondState.Enabled] at hen
    exact iff_of_true (.inl rfl) (harmed.mp (.inr (by omega)))
  | count =>
    rw [timerLifecycle_iff (s := s.after .count) hfreed]
    simp only [SecondState.Enabled] at hen
    have hfiles : 0 < (s.after .count).files := harmed.mp (.inr (by omega))
    rw [iff_true_right hfiles]
    simp only [SecondState.after, KeepsTimer, SecondState.handlers, hused, true_and]
    refine or_congr_right ?_
    omega

theorem timerLifecycle_init : TimerLifecycle secondDevice.init :=
  (timerLifecycle_iff rfl).mpr ⟨rfl, by decide⟩

theorem unused_init : Unused secondDevice.init := nofun

/-! ### Runs -/

/-- **The lifecycle of the timer.** In every run of opens, releases, expiries and handlers, up to
the exit of the module, the timer is never misused, is pending or being handled exactly while a
file is open, and can neither expire nor be handled after its device has been freed, exactly when
every open finds it not pending, the last release meets no handler and every other one does, and
no handler ends with a timer that a release has deleted since. -/
theorem always_timerLifecycle_iff {as : List SecondAction} {s : SecondState}
    (hrun : secondDevice.run as = some s) :
    secondDevice.Always TimerLifecycle secondDevice.init as ↔
      secondDevice.Obeys KeepsTimer secondDevice.init as :=
  secondDevice.always_iff_obeys (S := Unused) (fun _ _ _ hs _ h => hs.next h)
    (fun _ _ _ hs hI h => timerLifecycle_next_iff hs hI h) unused_init timerLifecycle_init hrun

/-- A file is opened, its timer expires twice, it is released, and the module exits. -/
theorem always_timerLifecycle_iff_sample :
    secondDevice.Always TimerLifecycle secondDevice.init
      [.setup, .add, .reset, .expire, .rearm, .count, .expire, .rearm, .count, .release, .exit] :=
  (always_timerLifecycle_iff (Option.some_get (by decide)).symm).mpr (by decide)

/-- **A timer on a freed device.** The only file is released between the expiry and the
`mod_timer` of the handler: the timer is pending when the module exits, and expires after that. -/
theorem secondDevice_expires_after_exit :
    (secondDevice.run [.setup, .add, .reset, .expire, .release, .rearm, .count, .exit, .expire]).map
        (fun s => (s.freed, s.expired)) = some (true, 1) ∧
      ¬secondDevice.Always TimerLifecycle secondDevice.init
        [.setup, .add, .reset, .expire, .release, .rearm, .count, .exit, .expire] := by
  refine ⟨by decide, fun h => ?_⟩
  have hlast := h.last (Option.some_get (by decide)).symm
  exact absurd (hlast.freed (by decide)).2 (by decide)

/-! ### One file at a time -/

/-- At most one open or open file at a time, and releases between two handlers: what a counter of
the open files and `del_timer_sync` would give. -/
def OneFile (s : SecondState) : SecondAction → Prop
  | .setup => s.setUp = 0 ∧ s.files = 0
  | .release => s.handlers = 0
  | _ => True

/-- Where there is one file at a time, an open file has its timer pending or about to be armed. -/
structure OneFileInv (s : SecondState) : Prop where
  lifecycle : TimerLifecycle s
  unused : Unused s
  one : s.setUp + s.files ≤ 1
  armed : 0 < s.files → s.timer.pending = true ∨ 0 < s.expired

theorem OneFileInv.keepsTimer (h : OneFileInv s) (hC : OneFile s a) (hen : s.Enabled a) :
    KeepsTimer s a := by
  have hone : s.setUp + s.files ≤ 1 := h.one
  have hquiet : s.files = 0 → s.timer.pending = false := by
    intro hfiles
    by_contra hpending
    have := h.lifecycle.armed.mp (.inl (Bool.eq_true_of_not_eq_false hpending))
    omega
  cases a with
  | setup => exact hquiet hC.2
  | add =>
    simp only [SecondState.Enabled] at hen
    exact hquiet (by omega)
  | release =>
    simp only [SecondState.Enabled] at hen
    refine iff_of_true hC ?_
    rw [SecondState.files] at hone ⊢
    omega
  | count =>
    simp only [SecondState.Enabled] at hen
    have hfiles : 0 < s.files := h.lifecycle.armed.mp (.inr (by rw [SecondState.handlers]; omega))
    refine (h.armed hfiles).imp_right fun hexpired => ?_
    rw [SecondState.handlers]
    omega
  | reset | expire | rearm | exit => trivial

theorem OneFileInv.next (h : OneFileInv s) (hC : OneFile s a) (hnext : s.next a = some s') :
    OneFileInv s' := by
  obtain ⟨hen, rfl⟩ := SecondState.next_eq_some.mp hnext
  have hone := h.one
  have harmed := h.armed
  refine ⟨(timerLifecycle_next_iff h.unused h.lifecycle hnext).mpr (h.keepsTimer hC hen),
    h.unused.next hnext, ?_, ?_⟩
  · cases a with
    | setup =>
      have hnone : s.setUp = 0 ∧ s.files = 0 := hC
      simp only [SecondState.after, SecondState.files] at hnone ⊢
      omega
    | add | reset | release | expire | rearm | count | exit =>
      simp only [SecondState.Enabled, SecondState.after, SecondState.files] at *
      omega
  · cases a with
    | setup => exact fun hfiles => absurd hC.2 (Nat.pos_iff_ne_zero.mp hfiles)
    | add | rearm => exact fun _ => .inl rfl
    | expire => exact fun _ => .inr (Nat.succ_pos _)
    | release =>
      intro hfiles
      simp only [SecondState.Enabled, SecondState.after, SecondState.files] at *
      omega
    | reset =>
      refine fun _ => harmed ?_
      simp only [SecondState.Enabled, SecondState.files] at *
      omega
    | count | exit => exact harmed

theorem oneFileInv_init : OneFileInv secondDevice.init where
  lifecycle := timerLifecycle_init
  unused := unused_init
  one := by decide
  armed := nofun

/-- **One file at a time.** If at most one open or open file exists at a time, and no file is
released while the handler runs, the lifecycle of the timer is kept. -/
theorem always_timerLifecycle_of_oneFile {as : List SecondAction}
    (hC : secondDevice.Obeys OneFile secondDevice.init as) :
    secondDevice.Always TimerLifecycle secondDevice.init as :=
  secondDevice.always_of_obeys (fun _ _ _ h => h.next) (fun _ h => h.lifecycle) oneFileInv_init hC

end LinuxDriver
