import LinuxDriver.Lts
import LinuxDriver.Kernel

/-!
# Exclusive open of `lkm_memory`

`lkm_mem_open` takes the only slot of the device with `atomic_dec_and_test` on `open_count`; a call
that does not get it adds the one back and returns `-EBUSY`. `lkm_mem_release` gives the slot back.
Any number of calls run at once, and a step is one of their three atomic operations, or the entry
into a call. A call is named by the `struct file` it is about, which is a new one for every open.

The caller takes every value but `0` for a failure of open, and calls release only for a file whose
open returned `0`. In `spinlock/hello.c` and `poll/hello.c` an open that gets the slot returns `0`.
In `lkm-first.c` it returns what `atomic_dec_and_test` returned, which is `1`: the slot is taken and
no file is open, so that nobody ever gives the slot back.

The counter is an integer here. By the balance of `lkmMemOpen_exclusive` it stays in the range of
`int` as long as fewer than `2 ^ 31` calls are in progress (`Open.count_range`).

## Main definitions

* `atomicDecAndTest`, `OpenDriver`, `lkmMemOpenDriver`, `lkmFirstOpenDriver`.
* `OpenDriver.system`: all open and release calls.
* `Open.State.openFiles`, `Open.State.Quiescent`.

## Main results

* `lkmMemOpen_exclusive`: exclusion, the balance of the counter, and recovery.
* `lkmFirstOpen_balance_iff`: in `lkm-first.c` the counter is right only before the first open.
-/

namespace LinuxDriver

/-- `atomic_dec_and_test`: the new value, and whether it is zero. -/
def atomicDecAndTest (v : ℤ) : ℤ × Bool := (v - 1, v - 1 = 0)

/-- `atomic_inc` -/
def atomicInc (v : ℤ) : ℤ := v + 1

/-- The stages of `lkm_mem_open`: the value it returns after `atomic_dec_and_test` was true, and
after it was false. -/
structure OpenDriver where
  ret : Bool → ℤ

/-- `lkm_mem_open` of `spinlock/hello.c`, `poll/hello.c` and `async/hello.c`. -/
def lkmMemOpenDriver : OpenDriver where
  ret test := if test then 0 else -ebusy

/-- `lkm_mem_open` of `lkm-first.c`, where `ret` keeps the value of the test. -/
def lkmFirstOpenDriver : OpenDriver where
  ret test := if test then test.toNat else -ebusy

namespace Open

/-- The counter, the files whose open has not tested it yet, the files whose open has failed the
test and has not added the one back, the open files, and the files whose release has not added the
one back. -/
structure State where
  openCount : ℤ
  entered : List ℕ
  busy : List ℕ
  opened : List ℕ
  closing : List ℕ

/-- The entry into an open, its `atomic_dec_and_test`, its compensating `atomic_inc`, the entry into
a release, and its `atomic_inc`. -/
inductive Action
  | enter (f : ℕ)
  | decAndTest (f : ℕ)
  | addBack (f : ℕ)
  | close (f : ℕ)
  | release (f : ℕ)
  deriving DecidableEq

namespace State

variable (s : State)

/-- The file is not in use. -/
def Fresh (f : ℕ) : Prop := f ∉ s.entered ∧ f ∉ s.busy ∧ f ∉ s.opened ∧ f ∉ s.closing

instance (f : ℕ) : Decidable (s.Fresh f) := inferInstanceAs (Decidable (_ ∧ _))

/-- The number of open files. A file is open until its release has given the slot back. -/
def openFiles : ℕ := s.opened.length + s.closing.length

/-- No call is in progress. -/
def Quiescent : Prop := s.entered = [] ∧ s.busy = [] ∧ s.closing = []

/-- The return of `ret` from an open of the file: it is open when `ret` is zero. -/
def openReturned (f : ℕ) (ret : ℤ) : State :=
  if ret = 0 then { s with opened := f :: s.opened } else s

end State

end Open

namespace OpenDriver

open Open

variable (D : OpenDriver)

/-- The `atomic_dec_and_test` of an open. -/
def decAndTest (s : Open.State) (f : ℕ) : Open.State :=
  let r := atomicDecAndTest s.openCount
  let s := { s with openCount := r.1, entered := s.entered.erase f }
  if r.2 then s.openReturned f (D.ret true) else { s with busy := f :: s.busy }

/-- The compensating `atomic_inc` of an open. -/
def addBack (s : Open.State) (f : ℕ) : Open.State :=
  { s with openCount := atomicInc s.openCount, busy := s.busy.erase f }.openReturned f (D.ret false)

/-- The steps of the system. -/
def next (s : Open.State) : Open.Action → Option Open.State
  | .enter f => if s.Fresh f then some { s with entered := f :: s.entered } else none
  | .decAndTest f => if f ∈ s.entered then some (D.decAndTest s f) else none
  | .addBack f => if f ∈ s.busy then some (D.addBack s f) else none
  | .close f =>
    if f ∈ s.opened then
      some { s with opened := s.opened.erase f, closing := f :: s.closing }
    else none
  | .release f =>
    if f ∈ s.closing then
      some { s with openCount := atomicInc s.openCount, closing := s.closing.erase f }
    else none

/-- All calls on one device, which `atomic_set` has given one slot. -/
def system : Lts Open.State Open.Action where
  init := ⟨1, [], [], [], []⟩
  next := D.next

end OpenDriver

namespace Open

variable {D : OpenDriver} {s s' : State} {a : Action} {f : ℕ}

/-! ### One step -/

/-- The test is true when the counter was one. -/
theorem decAndTest_of_eq_one (h : s.openCount = 1) :
    D.decAndTest s f =
      State.openReturned { s with openCount := 0, entered := s.entered.erase f } f
        (D.ret true) := by
  simp [OpenDriver.decAndTest, atomicDecAndTest, h]

/-- The test is false when the counter was not one. -/
theorem decAndTest_of_ne_one (h : s.openCount ≠ 1) :
    D.decAndTest s f =
      { s with
        openCount := s.openCount - 1
        entered := s.entered.erase f
        busy := f :: s.busy } := by
  have hzero : ¬s.openCount - 1 = 0 := by omega
  simp [OpenDriver.decAndTest, atomicDecAndTest, hzero]

/-- The state after an open has returned `-EBUSY`. -/
theorem addBack_of_ret (h : D.ret false ≠ 0) :
    D.addBack s f = { s with openCount := s.openCount + 1, busy := s.busy.erase f } := by
  simp [OpenDriver.addBack, State.openReturned, atomicInc, h]

/-- All that a step can do. -/
theorem next_cases (h : D.next s a = some s') :
    (∃ f, a = .enter f ∧ s' = { s with entered := f :: s.entered }) ∨
    (∃ f, a = .decAndTest f ∧ f ∈ s.entered ∧ s' = D.decAndTest s f) ∨
    (∃ f, a = .addBack f ∧ f ∈ s.busy ∧ s' = D.addBack s f) ∨
    (∃ f, a = .close f ∧ f ∈ s.opened ∧
      s' = { s with opened := s.opened.erase f, closing := f :: s.closing }) ∨
    (∃ f, a = .release f ∧ f ∈ s.closing ∧
      s' = { s with openCount := s.openCount + 1, closing := s.closing.erase f }) := by
  cases a with
  | enter f =>
    obtain ⟨-, rfl⟩ : s.Fresh f ∧ _ := by simpa [OpenDriver.next] using h
    exact .inl ⟨f, rfl, rfl⟩
  | decAndTest f =>
    obtain ⟨hf, rfl⟩ : f ∈ s.entered ∧ _ := by simpa [OpenDriver.next] using h
    exact .inr (.inl ⟨f, rfl, hf, rfl⟩)
  | addBack f =>
    obtain ⟨hf, rfl⟩ : f ∈ s.busy ∧ _ := by simpa [OpenDriver.next] using h
    exact .inr (.inr (.inl ⟨f, rfl, hf, rfl⟩))
  | close f =>
    obtain ⟨hf, rfl⟩ : f ∈ s.opened ∧ _ := by simpa [OpenDriver.next] using h
    exact .inr (.inr (.inr (.inl ⟨f, rfl, hf, rfl⟩)))
  | release f =>
    obtain ⟨hf, rfl⟩ : f ∈ s.closing ∧ _ := by simpa [OpenDriver.next] using h
    exact .inr (.inr (.inr (.inr ⟨f, rfl, hf, rfl⟩)))

theorem length_erase_add_one {l : List ℕ} (h : f ∈ l) : (l.erase f).length + 1 = l.length := by
  have hpos := List.length_pos_of_mem h
  rw [List.length_erase_of_mem h]
  omega

/-! ### Exclusive open -/

/-- The counter is one less the open files and the failed opens that have not added the one back,
and at most one file is open. -/
structure Balanced (s : State) : Prop where
  count_eq : s.openCount = 1 - s.openFiles - s.busy.length
  le_one : s.openFiles ≤ 1

theorem Balanced.decAndTest (hs : Balanced s) :
    Balanced (lkmMemOpenDriver.decAndTest s f) := by
  obtain ⟨hcount, hle⟩ := hs
  simp only [State.openFiles] at hcount hle
  by_cases hone : s.openCount = 1
  · -- No file was open and no failed open was pending.
    have hret : lkmMemOpenDriver.ret true = 0 := rfl
    rw [decAndTest_of_eq_one hone, hret]
    constructor
    · simp only [State.openReturned, State.openFiles, if_true, List.length_cons]
      omega
    · simp only [State.openReturned, State.openFiles, if_true, List.length_cons]
      omega
  · rw [decAndTest_of_ne_one hone]
    constructor
    · simp only [State.openFiles, List.length_cons]
      omega
    · exact hle

/-- **The step lemma.** -/
theorem Balanced.next (hs : Balanced s) (h : lkmMemOpenDriver.next s a = some s') :
    Balanced s' := by
  obtain ⟨f, rfl, rfl⟩ | ⟨f, rfl, hf, rfl⟩ | ⟨f, rfl, hf, rfl⟩ | ⟨f, rfl, hf, rfl⟩ |
    ⟨f, rfl, hf, rfl⟩ := next_cases h
  · exact ⟨hs.count_eq, hs.le_one⟩
  · exact hs.decAndTest
  all_goals
    obtain ⟨hcount, hle⟩ := hs
    simp only [State.openFiles] at hcount hle
    have hlen := length_erase_add_one hf
  · rw [addBack_of_ret (by decide)]
    constructor
    · simp only [State.openFiles]
      omega
    · exact hle
  · constructor <;> simp only [State.openFiles, List.length_cons] <;> omega
  · constructor <;> simp only [State.openFiles] <;> omega

theorem balanced_of_reachable (hs : lkmMemOpenDriver.system.Reachable s) : Balanced s :=
  lkmMemOpenDriver.system.invariant (I := Balanced) ⟨rfl, Nat.zero_le _⟩
    (fun _ _ _ hs h => hs.next h) hs

/-- The counter is in the range of `int` while fewer than `2 ^ 31` calls are in progress. -/
theorem count_range (hs : Balanced s) (hbusy : s.busy.length < 2 ^ 31) :
    -2 ^ 31 ≤ s.openCount ∧ s.openCount < 2 ^ 31 := by
  obtain ⟨hcount, hle⟩ := hs
  omega

/-- When no call is in progress and no file is open, the next open gets the slot. -/
theorem Balanced.exists_open (hs : Balanced s) (hq : s.Quiescent) (hopened : s.opened = [])
    (f : ℕ) :
    ∃ s', lkmMemOpenDriver.system.runFrom s [.enter f, .decAndTest f] = some s' ∧
      s'.opened = [f] := by
  obtain ⟨hentered, hbusy, hclosing⟩ := hq
  have hone : s.openCount = 1 := by
    rw [hs.count_eq, State.openFiles, hopened, hclosing, hbusy]
    rfl
  have hfresh : s.Fresh f := by simp [State.Fresh, hentered, hbusy, hopened, hclosing]
  refine ⟨_, by simp [Lts.runFrom, OpenDriver.system, OpenDriver.next, hfresh]; rfl, ?_⟩
  rw [decAndTest_of_eq_one (by exact hone)]
  simp [State.openReturned, lkmMemOpenDriver, hopened]

end Open

open Open

/-- **Exclusive open.** In every reachable state at most one file is open, the counter is one less
the open files and the failed opens that have not added the one back; and when no call is in
progress and no file is open, the next open succeeds. -/
theorem lkmMemOpen_exclusive {s : Open.State} (hs : lkmMemOpenDriver.system.Reachable s) :
    s.openFiles ≤ 1 ∧ s.openCount = 1 - s.openFiles - s.busy.length ∧
    (s.Quiescent → s.opened = [] → ∀ f, ∃ s',
      lkmMemOpenDriver.system.runFrom s [.enter f, .decAndTest f] = some s' ∧ s'.opened = [f]) := by
  have hbal := balanced_of_reachable hs
  exact ⟨hbal.le_one, hbal.count_eq, fun hq hopened => hbal.exists_open hq hopened⟩

/-- One open gets the slot and two others have failed the test and not added the one back. -/
def openRace : Open.State := ⟨-2, [], [2, 1], [0], []⟩

theorem lkmMemOpen_exclusive_sample :
    openRace.openFiles ≤ 1 ∧ openRace.openCount = 1 - openRace.openFiles - openRace.busy.length ∧
    (openRace.Quiescent → openRace.opened = [] → ∀ f, ∃ s',
      lkmMemOpenDriver.system.runFrom openRace [.enter f, .decAndTest f] = some s' ∧
        s'.opened = [f]) :=
  lkmMemOpen_exclusive
    ⟨[.enter 0, .enter 1, .decAndTest 0, .decAndTest 1, .enter 2, .decAndTest 2], rfl⟩

namespace Open

/-! ### The first driver -/

/-- What the opens of a run have done to the slot. No file is ever open. Before the first test the
counter is one, and a file waits for the test as soon as a file was opened; after the first test
the slot is lost. -/
structure Leaking (as : List Action) (s : State) : Prop where
  opened_eq : s.opened = []
  closing_eq : s.closing = []
  entered_mem : ∀ f ∈ s.entered, .enter f ∈ as
  slot : (s.openCount = 1 ∧ s.busy = [] ∧ (s.entered = [] → ∀ f, .enter f ∉ as)) ∨
    (s.openCount = -s.busy.length ∧ ∃ f, .enter f ∈ as)

theorem leaking_init : Leaking [] lkmFirstOpenDriver.system.init where
  opened_eq := rfl
  closing_eq := rfl
  entered_mem _ h := absurd h List.not_mem_nil
  slot := .inl ⟨rfl, rfl, fun _ _ => List.not_mem_nil⟩

/-- **The step lemma of the leak.** -/
theorem Leaking.next {as : List Action} (hs : Leaking as s)
    (h : lkmFirstOpenDriver.next s a = some s') : Leaking (as ++ [a]) s' := by
  obtain ⟨hopened, hclosing, hentered, hslot⟩ := hs
  have hold : ∀ g, Action.enter g ∈ as → Action.enter g ∈ as ++ [a] := fun g hg =>
    List.mem_append_left _ hg
  obtain ⟨f, rfl, rfl⟩ | ⟨f, rfl, hf, rfl⟩ | ⟨f, rfl, hf, rfl⟩ | ⟨f, rfl, hf, rfl⟩ |
    ⟨f, rfl, hf, rfl⟩ := next_cases h
  · refine ⟨hopened, hclosing, ?_, ?_⟩
    · rintro g (_ | ⟨_, hg⟩)
      · simp
      · exact hold g (hentered g hg)
    · obtain ⟨hone, hbusy, -⟩ | ⟨hcount, g, hg⟩ := hslot
      · exact .inl ⟨hone, hbusy, fun h => absurd h (List.cons_ne_nil _ _)⟩
      · exact .inr ⟨hcount, g, hold g hg⟩
  · have htested : ∀ g ∈ s.entered.erase f, Action.enter g ∈ as ++ [.decAndTest f] :=
      fun g hg => hold g (hentered g (List.mem_of_mem_erase hg))
    have henter : ∃ g, Action.enter g ∈ as ++ [.decAndTest f] := ⟨f, hold f (hentered f hf)⟩
    by_cases hone : s.openCount = 1
    · -- The slot is taken, and the caller takes the returned `1` for a failure.
      have hret : lkmFirstOpenDriver.ret true ≠ 0 := by decide
      rw [decAndTest_of_eq_one hone, State.openReturned, if_neg hret]
      refine ⟨hopened, hclosing, htested, .inr ⟨?_, henter⟩⟩
      obtain ⟨-, hbusy, -⟩ | ⟨hcount, -⟩ := hslot
      · simp [hbusy]
      · omega
    · rw [decAndTest_of_ne_one hone]
      refine ⟨hopened, hclosing, htested, .inr ⟨?_, henter⟩⟩
      obtain ⟨h, -, -⟩ | ⟨hcount, -⟩ := hslot
      · exact absurd h hone
      · simp only [hcount, List.length_cons]
        omega
  · rw [addBack_of_ret (by decide)]
    refine ⟨hopened, hclosing, fun g hg => hold g (hentered g hg), ?_⟩
    obtain ⟨-, hbusy, -⟩ | ⟨hcount, g, hg⟩ := hslot
    · simp [hbusy] at hf
    · have hlen := length_erase_add_one hf
      exact .inr ⟨by simp only [hcount]; omega, g, hold g hg⟩
  · simp [hopened] at hf
  · simp [hclosing] at hf

end Open

/-- **The slot of the first driver.** After every run in which no call is left in progress, the
counter of `lkm-first.c` is one less the open files exactly when no open was called at all. -/
theorem lkmFirstOpen_balance_iff {as : List Open.Action} {s : Open.State}
    (hrun : lkmFirstOpenDriver.system.run as = some s) (hq : s.Quiescent) :
    s.openCount = 1 - s.openFiles ↔ ∀ f, .enter f ∉ as := by
  obtain ⟨hentered, hbusy, hclosing⟩ := hq
  have hleak := lkmFirstOpenDriver.system.invariant_run (I := Leaking) leaking_init
    (fun _ _ _ _ hs h => hs.next h) hrun
  have hfiles : s.openFiles = 0 := by
    rw [State.openFiles, hleak.opened_eq, hclosing]
    rfl
  rw [hfiles]
  obtain ⟨hone, -, hnone⟩ | ⟨hcount, f, hf⟩ := hleak.slot
  · exact ⟨fun _ => hnone hentered, fun _ => hone⟩
  · constructor
    · intro h
      simp [hcount, hbusy] at h
    · intro h
      exact absurd hf (h f)

/-- An open of the fresh device, from its entry to its return. -/
def lkmFirstOpenRun : List Open.Action := [.enter 0, .decAndTest 0]

theorem lkmFirstOpen_balance_iff_sample :
    (0 : ℤ) = 1 - (0 : ℕ) ↔ ∀ f, .enter f ∉ lkmFirstOpenRun := by
  have hrun : lkmFirstOpenDriver.system.run lkmFirstOpenRun = some ⟨0, [], [], [], []⟩ := rfl
  exact lkmFirstOpen_balance_iff hrun ⟨rfl, rfl, rfl⟩

/-- **The leaked slot.** After the first open no file is open and the counter is zero, and the next
open fails as well. -/
theorem lkmFirstOpen_leak :
    ∃ s, lkmFirstOpenDriver.system.run lkmFirstOpenRun = some s ∧ s.Quiescent ∧
      s.openFiles = 0 ∧ s.openCount = 0 ∧ s.openCount ≠ 1 - s.openFiles ∧
      ∃ s', lkmFirstOpenDriver.system.runFrom s [.enter 1, .decAndTest 1, .addBack 1] = some s' ∧
        s'.openFiles = 0 :=
  ⟨_, rfl, ⟨rfl, rfl, rfl⟩, rfl, rfl, by decide, _, rfl, rfl⟩

end LinuxDriver
