import LinuxDriver.Ledger

/-!
# Set-up and tear-down of the virtual disks

`vmem_disk_init` calls `setup_device` for each of its devices and goes on whatever becomes of it.
`vmem_disk_exit` tells from the pointers of a device what there is to free. A device has a data
buffer, a request queue and a gendisk; what a call does to them is a ledger.

The failure paths of `setup_device` free the data buffer and leave the pointer to it, so that
`vmem_disk_exit` frees it again. An unknown request mode is only reported: the code after the
`switch` goes through the `NULL` pointer to the queue.

## Main definitions

* `setupDevice`, `vmemDiskExitDevice`: the pointers of a device and the ledgers.
* `vmemDiskLedger`: the ledger of loading and unloading with any number of devices.
* `NoDangling`: a pointer that is not `NULL` points to a live resource.

## Main results

* `device_iff`: when the ledger of one device is balanced and leaves no dangling pointer.
* `vmemDisk_iff`: the same for any number of devices.
-/

namespace LinuxDriver

/-- `VMEMD_QUEUE` -/
def vmemdQueue : ℤ := 0

/-- `VMEMD_NOQUEUE` -/
def vmemdNoqueue : ℤ := 1

/-- What a device may hold. -/
inductive VmemResource
  | data
  | queue
  | gd
  deriving DecidableEq

instance : Fintype VmemResource := ⟨{.data, .queue, .gd}, fun r => by cases r <;> decide⟩

/-- The pointers of a `vmem_disk_dev`: whether each is not `NULL`. -/
structure VmemDiskDev where
  data : Bool
  queue : Bool
  gd : Bool

/-- Which of the allocations of `setup_device` succeed. -/
structure SetupOutcome where
  vmalloc : Bool
  allocQueue : Bool
  allocDisk : Bool

abbrev VmemLog := List (Event VmemResource)

/-- The labels `alloc_disk_falied` and `queue_falied`. -/
def setupFailed (dev : VmemDiskDev) (log : VmemLog) : VmemDiskDev × VmemLog :=
  (dev, if dev.data then log ++ [.on .release .data] else log)

/-- `setup_device` after the `switch`. The first statement that looks at the queue is the last
where there is none. -/
def setupDisk (dev : VmemDiskDev) (o : SetupOutcome) (log : VmemLog) : VmemDiskDev × VmemLog :=
  if dev.queue = false then (dev, log ++ [.nullDeref])
  else
    let log := log ++ [.on .use .queue]
    if o.allocDisk = false then setupFailed dev log
    else ({ dev with gd := true }, log ++ [.on .acquire .gd, .on .use .gd])

/-- `setup_device` in the request mode `mode`: the device that it leaves, and the ledger. -/
def setupDevice (mode : ℤ) (o : SetupOutcome) : VmemDiskDev × VmemLog :=
  let dev : VmemDiskDev := ⟨false, false, false⟩
  if o.vmalloc = false then (dev, [])
  else
    let dev := { dev with data := true }
    let log : VmemLog := [.on .acquire .data]
    if mode = vmemdNoqueue then
      if o.allocQueue = false then setupFailed dev log
      -- `blk_queue_make_request`
      else setupDisk { dev with queue := true } o (log ++ [.on .acquire .queue, .on .use .queue])
    else if mode = vmemdQueue then
      if o.allocQueue = false then setupFailed dev log
      else setupDisk { dev with queue := true } o (log ++ [.on .acquire .queue])
    else setupDisk dev o log

/-- The body of the loop of `vmem_disk_exit`. The queue is released with `kobject_put` or with
`blk_cleanup_queue`, by the request mode. -/
def vmemDiskExitDevice (dev : VmemDiskDev) : VmemLog :=
  (if dev.gd then [.on .use .gd, .on .release .gd] else []) ++
    (if dev.queue then [.on .release .queue] else []) ++
      (if dev.data then [.on .release .data] else [])

/-! ### One device -/

/-- The pointers that are not `NULL` point to live resources. -/
def NoDangling (dev : VmemDiskDev) (log : VmemLog) : Prop :=
  (dev.data = true → phaseOf .data log = .live) ∧ (dev.queue = true → phaseOf .queue log = .live) ∧
    (dev.gd = true → phaseOf .gd log = .live)

instance (dev : VmemDiskDev) (log : VmemLog) : Decidable (NoDangling dev log) :=
  inferInstanceAs (Decidable (_ ∧ _))

/-- The ledger of one device, set up and torn down. -/
def deviceLedger (mode : ℤ) (o : SetupOutcome) : VmemLog :=
  (setupDevice mode o).2 ++ vmemDiskExitDevice (setupDevice mode o).1

/-- There is no memory for the disk, or the request mode is known and nothing fails after that. -/
def SetsUp (mode : ℤ) (o : SetupOutcome) : Prop :=
  o.vmalloc = false ∨
    ((mode = vmemdNoqueue ∨ mode = vmemdQueue) ∧ o.allocQueue = true ∧ o.allocDisk = true)

instance (mode : ℤ) (o : SetupOutcome) : Decidable (SetsUp mode o) :=
  inferInstanceAs (Decidable (_ ∨ _))

/-- A device without memory has nothing to free. -/
theorem setupDevice_of_no_memory (mode : ℤ) {o : SetupOutcome} (h : o.vmalloc = false) :
    setupDevice mode o = (⟨false, false, false⟩, []) :=
  if_pos h

/-- In an unknown request mode, the `NULL` pointer to the queue is followed. -/
theorem setupDevice_of_unknown {mode : ℤ} {o : SetupOutcome} (hmemory : o.vmalloc = true)
    (hnoqueue : mode ≠ vmemdNoqueue) (hqueue : mode ≠ vmemdQueue) :
    setupDevice mode o = (⟨true, false, false⟩, [.on .acquire .data, .nullDeref]) := by
  simp [setupDevice, setupDisk, hmemory, hnoqueue, hqueue]

/-- **One device.** Its ledger is balanced, and its set-up leaves no dangling pointer, exactly when
there is no memory for the disk or the set-up succeeds. -/
theorem device_iff (mode : ℤ) (o : SetupOutcome) :
    (BalancedLedger (deviceLedger mode o) ∧
      NoDangling (setupDevice mode o).1 (setupDevice mode o).2) ↔ SetsUp mode o := by
  obtain ⟨vmalloc, queue, disk⟩ := o
  by_cases hnoqueue : mode = vmemdNoqueue
  · subst hnoqueue
    cases vmalloc <;> cases queue <;> cases disk <;> decide
  by_cases hqueue : mode = vmemdQueue
  · subst hqueue
    cases vmalloc <;> cases queue <;> cases disk <;> decide
  cases vmalloc with
  | false =>
    rw [deviceLedger, setupDevice_of_no_memory mode rfl]
    exact iff_of_true (by decide) (.inl rfl)
  | true =>
    rw [deviceLedger, setupDevice_of_unknown rfl hnoqueue hqueue]
    refine iff_of_false (fun h => h.1.deref (by decide)) ?_
    rintro (hmemory | ⟨hmode, -⟩)
    · cases hmemory
    · exact hmode.elim hnoqueue hqueue

/-! ### Any number of devices -/

/-- The ledger of `n` devices: the loop of `vmem_disk_init`, and the loop of `vmem_disk_exit`. -/
def vmemDiskLedger (mode : ℤ) (n : ℕ) (outcomes : ℕ → SetupOutcome) :
    List (Event (ℕ × VmemResource)) :=
  ((List.range n).flatMap fun i => (setupDevice mode (outcomes i)).2.map (Event.map (Prod.mk i))) ++
    (List.range n).flatMap fun i =>
      (vmemDiskExitDevice (setupDevice mode (outcomes i)).1).map (Event.map (Prod.mk i))

variable {mode : ℤ} {n : ℕ} {outcomes : ℕ → SetupOutcome}

theorem opsOn_vmemDiskLedger (i : ℕ) (r : VmemResource) :
    opsOn (i, r) (vmemDiskLedger mode n outcomes) =
      if i < n then opsOn r (deviceLedger mode (outcomes i)) else [] := by
  rw [vmemDiskLedger, opsOn_append, opsOn_flatMap_map, opsOn_flatMap_map]
  by_cases h : i < n
  · rw [if_pos h, if_pos h, if_pos h, deviceLedger, opsOn_append]
  · rw [if_neg h, if_neg h, if_neg h]
    rfl

theorem nullDeref_mem_vmemDiskLedger :
    .nullDeref ∈ vmemDiskLedger mode n outcomes ↔
      ∃ i < n, .nullDeref ∈ deviceLedger mode (outcomes i) := by
  simp only [vmemDiskLedger, deviceLedger, List.mem_append, List.mem_flatMap, List.mem_range,
    nullDeref_mem_map]
  constructor
  · rintro (⟨i, hi, h⟩ | ⟨i, hi, h⟩)
    · exact ⟨i, hi, .inl h⟩
    · exact ⟨i, hi, .inr h⟩
  · rintro ⟨i, hi, h | h⟩
    · exact .inl ⟨i, hi, h⟩
    · exact .inr ⟨i, hi, h⟩

/-- The ledger of all devices is balanced exactly when that of each one is. -/
theorem balanced_vmemDiskLedger_iff :
    BalancedLedger (vmemDiskLedger mode n outcomes) ↔
      ∀ i < n, BalancedLedger (deviceLedger mode (outcomes i)) := by
  have hphase : ∀ i r, phaseOf (i, r) (vmemDiskLedger mode n outcomes) =
      if i < n then phaseOf r (deviceLedger mode (outcomes i)) else .absent := by
    intro i r
    rw [phaseOf, opsOn_vmemDiskLedger]
    split <;> rfl
  constructor
  · intro h i hi
    refine ⟨fun hderef => h.deref (nullDeref_mem_vmemDiskLedger.mpr ⟨i, hi, hderef⟩), fun r => ?_⟩
    have hr := h.phase (i, r)
    rw [hphase, if_pos hi] at hr
    exact hr
  · intro h
    constructor
    · intro hderef
      obtain ⟨i, hi, hi'⟩ := nullDeref_mem_vmemDiskLedger.mp hderef
      exact (h i hi).deref hi'
    · rintro ⟨i, r⟩
      rw [hphase]
      by_cases hi : i < n
      · rw [if_pos hi]
        exact (h i hi).phase r
      · rw [if_neg hi]
        exact .inl rfl

/-- **Set-up and tear-down.** For any number of devices, every buffer, queue and gendisk is freed
exactly once, no `NULL` queue is followed and no set-up leaves a dangling pointer, exactly when for
each device there is no memory for the disk, or the request mode is known and its queue and gendisk
can be allocated. -/
theorem vmemDisk_iff (mode : ℤ) (n : ℕ) (outcomes : ℕ → SetupOutcome) :
    (BalancedLedger (vmemDiskLedger mode n outcomes) ∧
      ∀ i < n, NoDangling (setupDevice mode (outcomes i)).1 (setupDevice mode (outcomes i)).2) ↔
      ∀ i < n, SetsUp mode (outcomes i) := by
  rw [balanced_vmemDiskLedger_iff, ← forall₂_and]
  exact forall₂_congr fun i _ => device_iff mode (outcomes i)

/-- **A buffer freed twice.** The allocation of the gendisk of a device fails: its data buffer is
freed by `setup_device`, and again by `vmem_disk_exit`. -/
theorem setupDevice_double_free :
    vmemDiskLedger vmemdQueue 1 (fun _ => ⟨true, true, false⟩) =
        [.on .acquire (0, .data), .on .acquire (0, .queue), .on .use (0, .queue),
          .on .release (0, .data), .on .release (0, .queue), .on .release (0, .data)] ∧
      ¬BalancedLedger (vmemDiskLedger vmemdQueue 1 fun _ => ⟨true, true, false⟩) ∧
      ¬NoDangling (setupDevice vmemdQueue ⟨true, true, false⟩).1
        (setupDevice vmemdQueue ⟨true, true, false⟩).2 := by
  refine ⟨rfl, fun h => ?_, by decide⟩
  exact absurd (h.phase (0, .data)) (by decide)

end LinuxDriver
