import LinuxDriver.LkmMemory.Open

/-!
# Asynchronous notification over the life of a file

`lkm_mem_fasync` of `async/hello.c` finds the device through `filp->private_data` and hands its
list to `fasync_helper`. `lkm_mem_release` sets `filp->private_data` to `NULL`, gives the slot back,
and only then calls `lkm_mem_fasync` to take the file off the list: every release dereferences a
null pointer, and the entry of the file stays on the list.

`fasync_helper` is the kernel's. What is used of it is that it puts a file on the list or takes it
off, and that it may fail to put it there for want of memory and then leaves the list alone
(`FasyncHelper`). A call that failed with `-EIO` does not count as an `on`.

## Main definitions

* `FasyncHelper`, `listFasyncHelper`.
* `Fasync.lkmMemOpen`, `Fasync.lkmMemFasync`, `Fasync.lkmMemRelease`.
* `Fasync.system`: the calls on any files.
* `Fasync.Tracked`: what the life of a file promises.

## Main results

* `lkmMemFasync_tracked_iff`: the promise is kept in exactly the runs without a release.
-/

namespace LinuxDriver

/-! ### The helper -/

/-- A `fasync_helper`: from whether there is memory, the mode, the file and the list it computes
its return value and the new list. -/
structure FasyncHelper where
  call : (memory mode : Bool) → (f : ℕ) → List ℕ → ℤ × List ℕ
  off_nonneg : ∀ memory f l, 0 ≤ (call memory false f l).1
  mem_off : ∀ memory f l g, g ∈ (call memory false f l).2 ↔ g ≠ f ∧ g ∈ l
  mem_on : ∀ memory f l, 0 ≤ (call memory true f l).1 →
    ∀ g, g ∈ (call memory true f l).2 ↔ g = f ∨ g ∈ l
  on_error : ∀ memory f l, (call memory true f l).1 < 0 → (call memory true f l).2 = l

/-- The helper of the kernel: it returns `1` when it changed the list, `0` when the file was or was
not there already, and `-ENOMEM` without memory for a new entry. -/
def listFasyncHelper : FasyncHelper where
  call memory mode f l :=
    match mode with
    | true => if f ∈ l then (0, l) else if memory then (1, f :: l) else (-12, l)
    | false => if f ∈ l then (1, l.filter (· ≠ f)) else (0, l)
  off_nonneg memory f l := by
    by_cases hf : f ∈ l <;> simp [hf]
  mem_off memory f l g := by
    by_cases hf : f ∈ l
    · simp [hf, and_comm]
    · simp only [hf, if_false, iff_and_self]
      rintro hg rfl
      exact hf hg
  mem_on memory f l h g := by
    by_cases hf : f ∈ l
    · simp only [hf, if_true, iff_or_self]
      rintro rfl
      exact hf
    · cases memory
      · simp [hf] at h
      · simp [hf]
  on_error memory f l h := by
    by_cases hf : f ∈ l
    · simp [hf] at h
    · cases memory <;> simp_all

namespace Fasync

/-! ### The calls -/

/-- The counter, the list of the device, the files whose private data point to the device, the
files the caller holds open, the files whose last successful `fasync` call was an `on`, and whether
a null pointer was dereferenced. -/
structure State where
  openCount : ℤ
  fasync : List ℕ
  privateData : ℕ → Bool
  opened : List ℕ
  wanted : ℕ → Bool
  oops : Bool

/-- `lkm_mem_open`, and the file as a new one of the caller. -/
def lkmMemOpen (s : State) (f : ℕ) : State × ℤ :=
  let s := { s with
    privateData := Function.update s.privateData f true
    wanted := Function.update s.wanted f false }
  let r := atomicDecAndTest s.openCount
  if r.2 then ({ s with openCount := r.1 }, lkmMemOpenDriver.ret true)
  else ({ s with openCount := atomicInc r.1 }, lkmMemOpenDriver.ret false)

/-- `lkm_mem_fasync` -/
def lkmMemFasync (H : FasyncHelper) (s : State) (memory mode : Bool) (f : ℕ) : State × ℤ :=
  if s.privateData f then
    let r := H.call memory mode f s.fasync
    ({ s with fasync := r.2 }, if 0 ≤ r.1 then 0 else -eio)
  else ({ s with oops := true }, -eio)

/-- `lkm_mem_release` -/
def lkmMemRelease (H : FasyncHelper) (s : State) (f : ℕ) : State :=
  let s' := { s with privateData := Function.update s.privateData f false }
  let s'' :=
    if s.privateData f then { s' with openCount := atomicInc s'.openCount }
    else { s' with oops := true }
  (lkmMemFasync H s'' true false f).1

/-! ### The caller -/

/-- The calls. The caller releases a file once, and only a file whose open returned `0`. -/
inductive Action
  | openFile (f : ℕ)
  | fasync (f : ℕ) (memory mode : Bool)
  | release (f : ℕ)

/-- The steps of the system. -/
def next (H : FasyncHelper) (s : State) : Action → Option State
  | .openFile f =>
    if f ∈ s.opened then none
    else
      let r := lkmMemOpen s f
      some (if r.2 = 0 then { r.1 with opened := f :: r.1.opened } else r.1)
  | .fasync f memory mode =>
    if f ∈ s.opened then
      let r := lkmMemFasync H s memory mode f
      some (if r.2 = 0 then { r.1 with wanted := Function.update r.1.wanted f mode } else r.1)
    else none
  | .release f =>
    if f ∈ s.opened then
      let s' := lkmMemRelease H s f
      some { s' with opened := s'.opened.erase f }
    else none

/-- The calls on one device. -/
def system (H : FasyncHelper) : Lts State Action where
  init := ⟨1, [], fun _ => false, [], fun _ => false, false⟩
  next := next H

/-- No null pointer was dereferenced, the list of the device has exactly the open files whose last
`fasync` call was an `on`, and the counter is one less the open files. -/
structure Tracked (s : State) : Prop where
  oops_eq : s.oops = false
  mem_fasync_iff : ∀ f, f ∈ s.fasync ↔ f ∈ s.opened ∧ s.wanted f = true
  count_eq : s.openCount = 1 - s.opened.length

variable {H : FasyncHelper} {s s' : State} {f : ℕ}

/-! ### Runs without a release -/

/-- The invariant of the runs without a release: the promise, and the private data of the open
files. -/
structure TrackInv (s : State) : Prop where
  tracked : Tracked s
  privateData : ∀ f ∈ s.opened, s.privateData f = true

theorem trackInv_init : TrackInv (system H).init where
  tracked := ⟨rfl, fun _ => by simp [system], rfl⟩
  privateData _ h := absurd h List.not_mem_nil

/-- An open that gets the slot opens the file; the others leave the counter and the list alone. -/
theorem lkmMemOpen_cases (s : State) (f : ℕ) :
    (s.openCount = 1 ∧ lkmMemOpen s f = ({ s with
      openCount := 0
      privateData := Function.update s.privateData f true
      wanted := Function.update s.wanted f false }, 0)) ∨
    (s.openCount ≠ 1 ∧ lkmMemOpen s f = ({ s with
      privateData := Function.update s.privateData f true
      wanted := Function.update s.wanted f false }, -ebusy)) := by
  by_cases hone : s.openCount = 1
  · exact .inl ⟨hone, by simp [lkmMemOpen, atomicDecAndTest, lkmMemOpenDriver, hone]⟩
  · have hzero : ¬s.openCount - 1 = 0 := by omega
    exact .inr ⟨hone, by
      simp [lkmMemOpen, atomicDecAndTest, atomicInc, lkmMemOpenDriver, hzero]⟩

theorem TrackInv.openFile (hs : TrackInv s) (h : next H s (.openFile f) = some s') :
    TrackInv s' := by
  obtain ⟨⟨hoops, hmem, hcount⟩, hdata⟩ := hs
  simp only [next, Option.ite_none_left_eq_some, Option.some.injEq] at h
  obtain ⟨hf, rfl⟩ := h
  -- The new private data and the new flag are those of a file that is not on the list.
  have hmem' : ∀ g, g ∈ s.fasync ↔ g ∈ s.opened ∧ Function.update s.wanted f false g = true := by
    intro g
    by_cases hg : g = f
    · simp [hg, hmem, hf]
    · simp [hg, hmem]
  have hdata' : ∀ g ∈ s.opened, Function.update s.privateData f true g = true := by
    intro g hg
    by_cases hgf : g = f
    · simp [hgf]
    · simpa [hgf] using hdata g hg
  obtain ⟨hone, hopen⟩ | ⟨hone, hopen⟩ := lkmMemOpen_cases s f
  · rw [hopen]
    refine ⟨⟨hoops, fun g => ?_, ?_⟩, fun g hg => ?_⟩
    · simp only [if_true, List.mem_cons, hmem']
      by_cases hg : g = f
      · simp [hg, hf]
      · simp [hg]
    · simp only [if_true, List.length_cons]
      omega
    · obtain rfl | hg := List.mem_cons.mp hg
      · simp
      · exact hdata' g hg
  · have hret : ¬(-ebusy = 0) := by decide
    simp only [hopen, if_neg hret]
    exact ⟨⟨hoops, hmem', hcount⟩, hdata'⟩

theorem TrackInv.fasync {memory mode : Bool} (hs : TrackInv s)
    (h : next H s (.fasync f memory mode) = some s') : TrackInv s' := by
  obtain ⟨⟨hoops, hmem, hcount⟩, hdata⟩ := hs
  simp only [next, Option.ite_none_right_eq_some, Option.some.injEq] at h
  obtain ⟨hf, rfl⟩ := h
  simp only [lkmMemFasync, hdata f hf, if_true]
  by_cases hret : 0 ≤ (H.call memory mode f s.fasync).1
  · -- The call succeeded, and the flag of the file follows the list.
    simp only [hret, if_true]
    refine ⟨⟨hoops, fun g => ?_, hcount⟩, hdata⟩
    cases mode with
    | true =>
      rw [H.mem_on memory f s.fasync hret g, hmem]
      by_cases hg : g = f
      · simp [hg, hf]
      · simp [hg]
    | false =>
      rw [H.mem_off memory f s.fasync g, hmem]
      by_cases hg : g = f
      · simp [hg]
      · simp [hg]
  · -- Only an `on` can fail, and it leaves the list alone.
    have heio : ¬(-eio = 0) := by decide
    simp only [hret, if_false, if_neg heio]
    cases mode with
    | true =>
      rw [H.on_error memory f s.fasync (by omega)]
      exact ⟨⟨hoops, hmem, hcount⟩, hdata⟩
    | false => exact absurd (H.off_nonneg memory f s.fasync) hret

/-- No release is called. -/
def NoRelease (_ : State) : Action → Prop
  | .release _ => False
  | _ => True

theorem TrackInv.next {a : Action} (hs : TrackInv s) (hC : NoRelease s a)
    (h : Fasync.next H s a = some s') : TrackInv s' := by
  cases a with
  | openFile f => exact hs.openFile h
  | fasync f memory mode => exact hs.fasync h
  | release f => exact hC.elim

/-! ### A release -/

/-- Every release dereferences a null pointer. -/
theorem oops_of_release (h : Fasync.next H s (.release f) = some s') : s'.oops = true := by
  simp only [Fasync.next, Option.ite_none_right_eq_some, Option.some.injEq] at h
  obtain ⟨hf, rfl⟩ := h
  cases hdata : s.privateData f <;> simp [lkmMemRelease, lkmMemFasync, hdata]

/-- No call undoes the dereferencing of a null pointer. -/
theorem oops_of_next {a : Action} (hs : s.oops = true) (h : Fasync.next H s a = some s') :
    s'.oops = true := by
  cases a with
  | openFile f =>
    simp only [Fasync.next, Option.ite_none_left_eq_some, Option.some.injEq] at h
    obtain ⟨hf, rfl⟩ := h
    obtain ⟨hone, hopen⟩ | ⟨hone, hopen⟩ := lkmMemOpen_cases s f <;> split_ifs <;> simpa [hopen]
  | fasync f memory mode =>
    simp only [Fasync.next, Option.ite_none_right_eq_some, Option.some.injEq] at h
    obtain ⟨hf, rfl⟩ := h
    cases hdata : s.privateData f <;> split_ifs <;> simp_all [lkmMemFasync]
  | release f => exact oops_of_release h

/-- After a run with a release a null pointer has been dereferenced. -/
theorem oops_of_mem {as : List Action} (hrun : (system H).run as = some s) :
    (∃ f, .release f ∈ as) → s.oops = true := by
  refine (system H).invariant_run (I := fun as s => (∃ f, Action.release f ∈ as) → s.oops = true)
    (fun ⟨f, hf⟩ => absurd hf List.not_mem_nil) ?_ hrun
  rintro as s a s' hs h ⟨f, hf⟩
  obtain hf | hf := List.mem_append.mp hf
  · exact oops_of_next (hs ⟨f, hf⟩) h
  · obtain rfl : .release f = a := by simpa using hf
    exact oops_of_release h

end Fasync

open Fasync

/-- **The life of a file.** In a run of calls every state keeps the promise of asynchronous
notification exactly when no file is released. -/
theorem lkmMemFasync_tracked_iff (H : FasyncHelper) {as : List Fasync.Action} {s : Fasync.State}
    (hrun : (Fasync.system H).run as = some s) :
    (Fasync.system H).Always Tracked (Fasync.system H).init as ↔ ∀ f, .release f ∉ as := by
  constructor
  · intro halways f hf
    have hlast := (halways.last hrun).oops_eq
    simp [oops_of_mem hrun ⟨f, hf⟩] at hlast
  · intro hno
    refine (Fasync.system H).always_of_obeys (C := NoRelease) (I := TrackInv)
      (fun _ _ _ hs hC h => hs.next hC h) (fun _ hs => hs.tracked) trackInv_init ?_
    refine (Fasync.system H).obeys_of_forall ?_ _
    intro a ha s
    cases a with
    | release f => exact absurd ha (hno f)
    | _ => trivial

/-- A file is opened, asks for notification, and is released. -/
def lkmReleaseRun : List Fasync.Action := [.openFile 0, .fasync 0 true true, .release 0]

theorem lkmMemFasync_tracked_iff_sample :
    (Fasync.system listFasyncHelper).Always Tracked (Fasync.system listFasyncHelper).init
      lkmReleaseRun ↔ ∀ f, .release f ∉ lkmReleaseRun := by
  have hrun : ∃ s, (Fasync.system listFasyncHelper).run lkmReleaseRun = some s := ⟨_, rfl⟩
  obtain ⟨s, hs⟩ := hrun
  exact lkmMemFasync_tracked_iff listFasyncHelper hs

/-- **A release of a file on the list.** A null pointer is dereferenced, and the list keeps a file
that is no longer open. -/
theorem lkmMemRelease_oops :
    ∃ s, (Fasync.system listFasyncHelper).run lkmReleaseRun = some s ∧ s.oops = true ∧
      s.opened = [] ∧ s.fasync = [0] ∧ ¬Tracked s :=
  ⟨_, rfl, rfl, rfl, rfl, fun h => absurd h.oops_eq (by decide)⟩

end LinuxDriver
