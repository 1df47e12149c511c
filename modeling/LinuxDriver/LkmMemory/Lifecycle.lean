import LinuxDriver.Ledger
import LinuxDriver.Lts

/-!
# Loading and unloading `lkm_memory`

The later stages of `lkm_memory` have the same `lkm_mem_init` and `lkm_mem_exit`; the stage
`component/timer.c` arms a timer in `setup_dev`, whose handler arms it again. A load acquires the
device struct, its name, the character device, the memory of the device, the timer if there is one,
the class and the device node, and each resource belongs to one load. The first stage,
`lkm-first.c`, is none of them: its `setup_dev` allocates no memory, so that every load clears
`NULL`.

`setup_dev` clears the memory without a test for `NULL`, nothing ever frees the memory or deletes
the timer, and so only a load that fails before `setup_dev` leaves no trace.

## Main definitions

* `LkmResource`, `LoadOutcome`.
* `setupDev`, `lkmMemInit`, `lkmMemExit`: what the functions do, as ledgers.
* `lkmModule`: loads, unloads and expiries of the timers in any order.
* `Settled`: nothing was misused, and what a load that failed or was undone had got is released.
* `KeepsSettled`: the condition on a step.

## Main results

* `settled_load_iff`: a load keeps the ledger settled exactly when it fails early or not at all.
* `not_settled_unload`: an unload never does.
* `always_settled_iff`: so does a run.
-/

namespace LinuxDriver

/-! ### Init and exit -/

inductive LkmResource
  | struct
  | name
  | chrdev
  | memory
  | timer
  | cls
  | device
  deriving DecidableEq

instance : Fintype LkmResource :=
  ⟨{.struct, .name, .chrdev, .memory, .timer, .cls, .device}, fun r => by cases r <;> decide⟩

/-- Which of the acquisitions of `lkm_mem_init` succeed. -/
structure LoadOutcome where
  struct : Bool
  name : Bool
  chrdev : Bool
  memory : Bool
  cls : Bool

abbrev LkmLog := List (Event LkmResource)

/-- `setup_dev`: whether it returns, and its ledger. Without memory, `memset` follows the `NULL`
pointer. -/
def setupDev (hasTimer : Bool) (o : LoadOutcome) : Bool × LkmLog :=
  if o.memory = false then (false, [.on .use .struct, .nullDeref])
  else if hasTimer then
    (true, [.on .use .struct, .on .acquire .memory, .on .use .memory, .on .acquire .timer])
  else (true, [.on .use .struct, .on .acquire .memory, .on .use .memory])

/-- From the label `handler_ealloc_name` on. -/
def handlerEallocName : LkmLog := [.on .release .struct]

/-- From the label `handler_eregister` on. -/
def handlerEregister : LkmLog := .on .release .name :: handlerEallocName

/-- From the labels `handler_eclass_create` and `handler_esetup` on. -/
def handlerEsetup : LkmLog := .on .release .chrdev :: handlerEregister

/-- `lkm_mem_init`: whether it returns zero, and its ledger. -/
def lkmMemInit (hasTimer : Bool) (o : LoadOutcome) : Bool × LkmLog :=
  if o.struct = false then (false, [])
  else
    let log : LkmLog := [.on .acquire .struct]
    if o.name = false then (false, log ++ handlerEallocName)
    else
      let named : LkmLog := [.on .acquire .name, .on .use .name, .on .use .struct]
      let log := log ++ named
      if o.chrdev = false then (false, log ++ handlerEregister)
      else
        let setup := setupDev hasTimer o
        let log := log ++ .on .acquire .chrdev :: setup.2
        if setup.1 = false then (false, log)
        else if o.cls = false then (false, log ++ handlerEsetup)
        else
          let created : LkmLog := [.on .acquire .cls, .on .acquire .device]
          (true, log ++ created)

/-- `lkm_mem_exit` -/
def lkmMemExit : LkmLog :=
  [.on .use .struct, .on .release .device, .on .release .cls, .on .use .name, .on .release .chrdev,
    .on .release .name, .on .release .struct]

/-! ### Runs -/

/-- The module: how often it was loaded, whether it is loaded now, and the ledger of all loads. -/
structure LkmState where
  loads : ℕ
  loaded : Bool
  log : List (Event (ℕ × LkmResource))

inductive LkmAction
  | load (o : LoadOutcome)
  | unload
  /-- The timer of a load expires, and `timer_out` arms it again. -/
  | timerOut (n : ℕ)

def LkmState.next (hasTimer : Bool) (s : LkmState) : LkmAction → Option LkmState
  | .load o =>
    if s.loaded then none
    else
      let init := lkmMemInit hasTimer o
      some ⟨s.loads + 1, init.1, s.log ++ init.2.map (Event.map (Prod.mk s.loads))⟩
  | .unload =>
    if s.loaded then
      some ⟨s.loads, false, s.log ++ lkmMemExit.map (Event.map (Prod.mk (s.loads - 1)))⟩
    else none
  | .timerOut n =>
    if phaseOf (n, .timer) s.log = .live then
      some { s with log := s.log ++ [Event.on .use .struct].map (Event.map (Prod.mk n)) }
    else none

/-- The loads and unloads of a module, and the expiries of its timers. -/
def lkmModule (hasTimer : Bool) : Lts LkmState LkmAction where
  init := ⟨0, false, []⟩
  next := LkmState.next hasTimer

/-- The load `n` is the one that is in the kernel now. -/
def LkmState.Current (s : LkmState) (n : ℕ) : Prop := s.loaded = true ∧ n + 1 = s.loads

instance (s : LkmState) (n : ℕ) : Decidable (s.Current n) :=
  inferInstanceAs (Decidable (_ ∧ _))

/-- Nothing was misused, no `NULL` pointer was followed, and whatever a load that failed or was
undone had acquired has been released once. So no timer is armed but that of the current load. -/
structure Settled (s : LkmState) : Prop where
  deref : .nullDeref ∉ s.log
  current : ∀ n r, s.Current n → phaseOf (n, r) s.log ≠ .misused
  past : ∀ n r, ¬s.Current n → phaseOf (n, r) s.log = .absent ∨ phaseOf (n, r) s.log = .released

/-- A load must not get past the registration of the character device and fail then, and the module
must not be unloaded. -/
def KeepsSettled : LkmState → LkmAction → Prop
  | _, .load o => o.struct = true → o.name = true → o.chrdev = true → o.memory = true ∧ o.cls = true
  | _, .unload => False
  | _, .timerOut _ => True

instance : (s : LkmState) → (a : LkmAction) → Decidable (KeepsSettled s a)
  | _, .load o => inferInstanceAs (Decidable (o.struct = true → _))
  | _, .unload => isFalse id
  | _, .timerOut _ => isTrue trivial

/-! ### One call -/

/-- What is live after a load that succeeded. -/
def loadedPhase (hasTimer : Bool) : LkmResource → Phase
  | .timer => if hasTimer then .live else .absent
  | _ => .live

/-- A load that succeeds leaves every resource live. -/
theorem phaseOf_lkmMemInit {hasTimer : Bool} {o : LoadOutcome}
    (h : (lkmMemInit hasTimer o).1 = true) (r : LkmResource) :
    phaseOf r (lkmMemInit hasTimer o).2 = loadedPhase hasTimer r := by
  obtain ⟨struct, name, chrdev, memory, cls⟩ := o
  revert h r
  cases struct with
  | false => decide +revert
  | true =>
  cases name with
  | false => decide +revert
  | true =>
  cases chrdev with
  | false => decide +revert
  | true =>
  cases memory with
  | false => decide +revert
  | true => decide +revert

/-- The ledger of a load is right exactly when the load fails before `setup_dev`, or not at all. -/
theorem lkmMemInit_iff (hasTimer : Bool) (o : LoadOutcome) :
    (if (lkmMemInit hasTimer o).1 then SoundLedger (lkmMemInit hasTimer o).2
      else BalancedLedger (lkmMemInit hasTimer o).2) ↔
      (o.struct = true → o.name = true → o.chrdev = true → o.memory = true ∧ o.cls = true) := by
  obtain ⟨struct, name, chrdev, memory, cls⟩ := o
  cases struct with
  | false => decide +revert
  | true =>
  cases name with
  | false => decide +revert
  | true =>
  cases chrdev with
  | false => decide +revert
  | true =>
  cases memory with
  | false => decide +revert
  | true => decide +revert

/-! ### One step -/

variable {hasTimer : Bool} {s s' : LkmState}

/-- The resources of the loads to come are absent, and those of a loaded module are live. -/
structure LoadsApart (hasTimer : Bool) (s : LkmState) : Prop where
  pos : s.loaded = true → 0 < s.loads
  fresh : ∀ n r, s.loads ≤ n → phaseOf (n, r) s.log = .absent
  current : ∀ n r, s.Current n → phaseOf (n, r) s.log = loadedPhase hasTimer r

/-- The names of the resources of two loads differ. -/
theorem load_ne {n m : ℕ} (h : n ≠ m) (r : LkmResource) (r' : LkmResource) :
    (Prod.mk n r' : ℕ × LkmResource) ≠ (m, r) :=
  fun heq => h (Prod.mk.inj heq).1

/-- What a part of the ledger about the load `n` says about another one. -/
theorem phaseOf_append_other {n m : ℕ} (h : n ≠ m) (r : LkmResource) (l : LkmLog) :
    phaseOf (m, r) (s.log ++ l.map (Event.map (Prod.mk n))) = phaseOf (m, r) s.log :=
  phaseOf_append_map_other (load_ne h r) _ _

theorem phaseOf_append_self (n : ℕ) (r : LkmResource) (l : LkmLog) :
    phaseOf (n, r) (s.log ++ l.map (Event.map (Prod.mk n))) =
      (phaseOf (n, r) s.log).after (opsOn r l) :=
  phaseOf_append_map_self (Prod.mk_right_injective n) _ _ _

/-- The step of a load. -/
theorem next_load {o : LoadOutcome} (h : s.next hasTimer (.load o) = some s') :
    s.loaded = false ∧ s'.loads = s.loads + 1 ∧ s'.loaded = (lkmMemInit hasTimer o).1 ∧
      s'.log = s.log ++ (lkmMemInit hasTimer o).2.map (Event.map (Prod.mk s.loads)) := by
  rw [LkmState.next] at h
  split at h
  · cases h
  · rename_i hloaded
    cases h
    exact ⟨Bool.eq_false_of_not_eq_true hloaded, rfl, rfl, rfl⟩

/-- The step of an unload. -/
theorem next_unload (h : s.next hasTimer .unload = some s') :
    s.loaded = true ∧ s'.loads = s.loads ∧ s'.loaded = false ∧
      s'.log = s.log ++ lkmMemExit.map (Event.map (Prod.mk (s.loads - 1))) := by
  rw [LkmState.next] at h
  split at h
  · rename_i hloaded
    cases h
    exact ⟨hloaded, rfl, rfl, rfl⟩
  · cases h

/-- The step of an expiry. -/
theorem next_timerOut {n : ℕ} (h : s.next hasTimer (.timerOut n) = some s') :
    phaseOf (n, .timer) s.log = .live ∧ s'.loads = s.loads ∧ s'.loaded = s.loaded ∧
      s'.log = s.log ++ [Event.on .use .struct].map (Event.map (Prod.mk n)) := by
  rw [LkmState.next] at h
  split at h
  · rename_i hlive
    cases h
    exact ⟨hlive, rfl, rfl, rfl⟩
  · cases h

/-- The use of a live struct changes nothing. -/
theorem after_use_struct {r : LkmResource} {p : Phase} (h : r = .struct → p = .live) :
    p.after (opsOn r [.on .use .struct]) = p := by
  cases r with
  | struct => rw [h rfl]; rfl
  | _ => rfl

/-- A step that says something about one of the loads so far leaves those to come alone. -/
theorem LoadsApart.fresh_of_append {m : ℕ} {l : LkmLog} (hs : LoadsApart hasTimer s)
    (hlog : s'.log = s.log ++ l.map (Event.map (Prod.mk m))) (hloads : s.loads ≤ s'.loads)
    (hm : m < s'.loads) (n : ℕ) (r : LkmResource) (hn : s'.loads ≤ n) :
    phaseOf (n, r) s'.log = .absent := by
  rw [hlog, phaseOf_append_other (by omega)]
  exact hs.fresh n r (hloads.trans hn)

/-- Every step keeps the resources of the loads apart. -/
theorem LoadsApart.next {a : LkmAction} (hs : LoadsApart hasTimer s)
    (h : s.next hasTimer a = some s') : LoadsApart hasTimer s' := by
  cases a with
  | load o =>
    obtain ⟨-, hloads, hloaded, hlog⟩ := next_load h
    refine ⟨fun _ => by omega, hs.fresh_of_append hlog (by omega) (by omega), ?_⟩
    rintro n r ⟨hcur, hn⟩
    obtain rfl : n = s.loads := by omega
    rw [hlog, phaseOf_append_self, hs.fresh _ r le_rfl]
    exact phaseOf_lkmMemInit (hloaded.symm.trans hcur) r
  | unload =>
    obtain ⟨hwas, hloads, hloaded, hlog⟩ := next_unload h
    have hpos : 0 < s.loads := hs.pos hwas
    refine ⟨fun _ => by omega, hs.fresh_of_append hlog hloads.ge (by omega), ?_⟩
    rintro n r ⟨hcur, -⟩
    rw [hloaded] at hcur
    cases hcur
  | timerOut n =>
    obtain ⟨hlive, hloads, hloaded, hlog⟩ := next_timerOut h
    have hn : n < s.loads := by
      by_contra hn
      rw [hs.fresh n .timer (by omega)] at hlive
      cases hlive
    refine ⟨fun _ => by omega, hs.fresh_of_append hlog hloads.ge (by omega), ?_⟩
    rintro m r ⟨hcur, hm⟩
    have hcurrent : s.Current m := ⟨hloaded ▸ hcur, by omega⟩
    rw [← hs.current m r hcurrent, hlog]
    by_cases hnm : n = m
    · subst hnm
      rw [phaseOf_append_self]
      refine after_use_struct fun hr => ?_
      rw [hs.current n r hcurrent, hr]
      rfl
    · exact phaseOf_append_other hnm r _

/-- Where nothing is loaded, the resources of every load so far are released. -/
theorem Settled.past_of_unloaded (h : Settled s) (hloaded : s.loaded = false) (n : ℕ)
    (r : LkmResource) : phaseOf (n, r) s.log = .absent ∨ phaseOf (n, r) s.log = .released :=
  h.past n r fun hcur => by rw [hcur.1] at hloaded; cases hloaded

/-- **A load.** It leaves nothing behind exactly when it fails before `setup_dev`, or not at all. -/
theorem settled_load_iff {o : LoadOutcome} (hs : LoadsApart hasTimer s) (hset : Settled s)
    (h : s.next hasTimer (.load o) = some s') :
    Settled s' ↔
      (o.struct = true → o.name = true → o.chrdev = true → o.memory = true ∧ o.cls = true) := by
  rw [← lkmMemInit_iff hasTimer o]
  obtain ⟨hunloaded, hloads, hloaded, hlog⟩ := next_load h
  have hself : ∀ r, phaseOf (s.loads, r) s'.log = phaseOf r (lkmMemInit hasTimer o).2 := by
    intro r
    rw [hlog, phaseOf_append_self, hs.fresh _ r le_rfl, phaseOf]
  have hother : ∀ n r, n ≠ s.loads → phaseOf (n, r) s'.log = .absent ∨
      phaseOf (n, r) s'.log = .released := by
    intro n r hn
    rw [hlog, phaseOf_append_other hn.symm]
    exact hset.past_of_unloaded hunloaded n r
  have hderef : .nullDeref ∉ s'.log ↔ .nullDeref ∉ (lkmMemInit hasTimer o).2 := by
    rw [hlog, List.mem_append, nullDeref_mem_map, not_or]
    exact and_iff_right hset.deref
  have hcurrent : ∀ n, s'.Current n ↔ (lkmMemInit hasTimer o).1 = true ∧ n = s.loads := by
    intro n
    rw [LkmState.Current, hloaded, hloads, Nat.add_right_cancel_iff]
  by_cases hok : (lkmMemInit hasTimer o).1 = true
  · rw [if_pos hok]
    constructor
    · exact fun hset' => ⟨hderef.mp hset'.deref,
        fun r => hself r ▸ hset'.current s.loads r ((hcurrent _).mpr ⟨hok, rfl⟩)⟩
    · intro hsound
      refine ⟨hderef.mpr hsound.deref, fun n r hcur => ?_, fun n r hcur => ?_⟩
      · obtain ⟨-, rfl⟩ := (hcurrent n).mp hcur
        rw [hself]
        exact hsound.phase r
      · exact hother n r fun hn => hcur ((hcurrent n).mpr ⟨hok, hn⟩)
  · rw [if_neg hok]
    have hnone : ∀ n, ¬s'.Current n := fun n hcur => hok ((hcurrent n).mp hcur).1
    constructor
    · exact fun hset' => ⟨hderef.mp hset'.deref, fun r => hself r ▸ hset'.past _ r (hnone _)⟩
    · intro hbal
      refine ⟨hderef.mpr hbal.deref, fun n r hcur => absurd hcur (hnone n), fun n r _ => ?_⟩
      by_cases hn : n = s.loads
      · subst hn
        rw [hself]
        exact hbal.phase r
      · exact hother n r hn

/-- **An unload.** It leaves the memory of the device behind. -/
theorem not_settled_unload (hs : LoadsApart hasTimer s) (h : s.next hasTimer .unload = some s') :
    ¬Settled s' := by
  intro hset
  obtain ⟨hwas, -, hloaded, hlog⟩ := next_unload h
  have hpos : 0 < s.loads := hs.pos hwas
  have hlive : phaseOf (s.loads - 1, .memory) s'.log = .live := by
    rw [hlog, phaseOf_append_self, hs.current _ _ ⟨hwas, by omega⟩]
    rfl
  have hpast := hset.past_of_unloaded hloaded (s.loads - 1) .memory
  rw [hlive] at hpast
  exact hpast.elim nofun nofun

/-- **An expiry.** Where the ledger is settled, the timer is that of the current load, and its
handler finds the device struct. -/
theorem Settled.timerOut {n : ℕ} (hs : LoadsApart hasTimer s) (hset : Settled s)
    (h : s.next hasTimer (.timerOut n) = some s') : Settled s' := by
  obtain ⟨hlive, hloads, hloaded, hlog⟩ := next_timerOut h
  have hcur : s.Current n := by
    by_contra hcur
    have hpast := hset.past n .timer hcur
    rw [hlive] at hpast
    exact hpast.elim nofun nofun
  have hsame : ∀ m r, phaseOf (m, r) s'.log = phaseOf (m, r) s.log := by
    intro m r
    rw [hlog]
    by_cases hnm : n = m
    · subst hnm
      rw [phaseOf_append_self]
      refine after_use_struct fun hr => ?_
      rw [hs.current n r hcur, hr]
      rfl
    · exact phaseOf_append_other hnm r _
  have hcurrent : ∀ m, s'.Current m ↔ s.Current m := by
    intro m
    rw [LkmState.Current, LkmState.Current, hloaded, hloads]
  refine ⟨?_, fun m r hm => ?_, fun m r hm => ?_⟩
  · rw [hlog, List.mem_append, nullDeref_mem_map, not_or]
    exact ⟨hset.deref, by decide⟩
  · rw [hsame]
    exact hset.current m r ((hcurrent m).mp hm)
  · rw [hsame]
    exact hset.past m r fun hm' => hm ((hcurrent m).mpr hm')

/-! ### Runs -/

theorem loadsApart_init : LoadsApart hasTimer (lkmModule hasTimer).init where
  pos := nofun
  fresh _ _ _ := rfl
  current _ _ hcur := nomatch hcur.1

theorem settled_init : Settled (lkmModule hasTimer).init where
  deref := List.not_mem_nil
  current _ _ := nofun
  past _ _ _ := .inl rfl

/-- **Loading and unloading.** In every run of loads, unloads and expiries, nothing of a load that
failed or was undone stays live, is released twice or is used again, the handler of the timer
included, exactly when no load gets past the registration of the character device and fails then,
and the module is never unloaded. -/
theorem always_settled_iff (hasTimer : Bool) {as : List LkmAction} {s : LkmState}
    (hrun : (lkmModule hasTimer).run as = some s) :
    (lkmModule hasTimer).Always Settled (lkmModule hasTimer).init as ↔
      (lkmModule hasTimer).Obeys KeepsSettled (lkmModule hasTimer).init as := by
  refine (lkmModule hasTimer).always_iff_obeys (S := LoadsApart hasTimer)
    (fun s a s' hs _ h => hs.next h) (fun s a s' hs hset h => ?_) loadsApart_init settled_init hrun
  cases a with
  | load o => exact settled_load_iff hs hset h
  | unload => exact iff_of_false (not_settled_unload hs h) id
  | timerOut n => exact iff_of_true (hset.timerOut hs h) trivial

/-- A load that fails without memory for the name, then one that succeeds, whose timer expires. -/
theorem always_settled_iff_sample :
    (lkmModule true).Always Settled (lkmModule true).init
      [.load ⟨true, false, true, true, true⟩, .load ⟨true, true, true, true, true⟩,
        .timerOut 1] :=
  (always_settled_iff true (Option.some_get (by decide)).symm).mpr (by decide)

/-- **A timer on freed memory.** The module is loaded and unloaded: its memory is still live, its
timer too, and the handler uses the device struct after it has been freed. -/
theorem lkmModule_unload_leaks :
    ((lkmModule true).run [.load ⟨true, true, true, true, true⟩, .unload, .timerOut 0]).map
        (fun s => (s.loaded, phaseOf (0, .memory) s.log, phaseOf (0, .timer) s.log,
          phaseOf (0, .struct) s.log)) = some (false, .live, .live, .misused) ∧
      ¬(lkmModule true).Always Settled (lkmModule true).init
        [.load ⟨true, true, true, true, true⟩, .unload, .timerOut 0] := by
  refine ⟨by decide, fun h => ?_⟩
  have hset := h.last (Option.some_get (by decide)).symm
  have hpast := hset.past 0 .memory (by decide)
  exact absurd hpast (by decide)

end LinuxDriver
