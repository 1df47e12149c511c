import LinuxDriver.GlobalFifo.Sleep
import LinuxDriver.LkmMemory.Drivers

/-!
# The compaction of the read path

After a read of `n` bytes the FIFO drivers move the rest to the front with
`memcpy(mem, mem + n, len - n)`. C gives that call a meaning only if the ranges do not overlap,
which depends on the fill level and on the count: they are apart exactly if the read takes at least
half of the bytes held.

## Main definitions

* `fifoDrivers`: the drivers with this read path.
* `FifoDev.CompactionExact`: the call has a meaning, and every copy that the contract allows moves
  the rest to the front.
* `Fifo.CompactsExactly`, `Fifo.TakesHalf`: the same for the call of a step, and its condition.

## Main results

* `FifoDev.compactionExact_iff`: one call.
* `compaction_iff`: every fill level that is reached, and every run.
-/

namespace LinuxDriver

/-- The drivers of `globalfifo.c`, `plat-misc.c`, `poll/hello.c` and `async/hello.c`. -/
def fifoDrivers : List FifoDriver :=
  [globalfifoDriver, platMiscDriver, lkmPollDriver, lkmAsyncDriver]

/-- `len` is not wider than the difference that is passed to `memcpy`. -/
theorem lenBits_le_of_mem {D : FifoDriver} (hD : D ∈ fifoDrivers) :
    D.layout.lenBits ≤ D.layout.countBits := by
  have hlayout : D.layout = globalfifoLayout ∨ D.layout = lkmLayout := by
    obtain rfl | rfl | rfl | rfl : D = globalfifoDriver ∨ D = platMiscDriver ∨
        D = lkmPollDriver ∨ D = lkmAsyncDriver := by simpa [fifoDrivers] using hD
    · exact .inl rfl
    · exact .inl rfl
    · exact .inr rfl
    · exact .inr rfl
  obtain h | h := hlayout
  · rw [h]
    decide
  · rw [h]
    decide

/-! ### One call -/

namespace FifoDev

variable (L : FifoLayout) (dev : FifoDev) {n : ℕ}

/-- `memcpy(dev->mem, dev->mem + n, dev->len - n)` is applied to ranges apart, and whatever it
leaves behind has the rest of the bytes at the front. -/
structure CompactionExact (n : ℕ) : Prop where
  apart : Buffer.RangesApart 0 n (wrapSub L.countBits dev.len n)
  moved : ∀ m', Buffer.MemcpyContract dev.memory 0 n (wrapSub L.countBits dev.len n) m' →
    m'.load 0 (dev.len - n) = dev.memory.load n (dev.len - n)

/-- The memory that the machine goes on with is one that the contract allows. -/
theorem memcpyContract_shiftDown (n : ℕ) :
    Buffer.MemcpyContract dev.memory 0 n (wrapSub L.countBits dev.len n)
      (dev.shiftDown L n).memory :=
  Buffer.memcpyContract_memcpy _ (Nat.zero_le n) _

variable {L dev}

/-- **One compaction.** -/
theorem compactionExact_iff (hlen : dev.len < 2 ^ L.countBits) (hpos : 1 ≤ n)
    (hn : n ≤ dev.len) : CompactionExact L dev n ↔ dev.len ≤ 2 * n := by
  have hrest : wrapSub L.countBits dev.len n = dev.len - n := wrapSub_of_le hlen hn
  have hapart : Buffer.RangesApart 0 n (dev.len - n) ↔ dev.len ≤ 2 * n := by
    rw [Buffer.rangesApart_iff]
    omega
  constructor
  · intro h
    have hranges := h.apart
    rw [hrest] at hranges
    exact hapart.mp hranges
  · intro h
    refine ⟨?_, fun m' hm' => ?_⟩
    · rw [hrest]
      exact hapart.mpr h
    · rw [hrest] at hm'
      exact hm'.copied (hapart.mpr h)

end FifoDev

/-! ### The calls of a run -/

namespace Fifo

variable {D : FifoDriver} {s s' : State} {a : Action}

variable (D) in
/-- If the step is a compaction of the rest behind some of the bytes held, it is exact. -/
def CompactsExactly (s : State) (a : Action) : Prop :=
  ∀ t n out, a = .step t → s.pc t = .shift n out → 1 ≤ n → n ≤ s.dev.len →
    s.dev.CompactionExact D.layout n

/-- If the step is a compaction of the rest behind some of the bytes held, these are at least
half. -/
def TakesHalf (s : State) (a : Action) : Prop :=
  ∀ t n out, a = .step t → s.pc t = .shift n out → 1 ≤ n → n ≤ s.dev.len → s.dev.len ≤ 2 * n

/-- `len` is a number of its width in every state. -/
theorem len_lt_of_next (hs : s.dev.len < 2 ^ D.layout.lenBits) (h : D.next s a = some s') :
    s'.dev.len < 2 ^ D.layout.lenBits := by
  obtain ⟨t, call, p, rfl, hpc, hp, rfl⟩ | ⟨t, rfl, hstmt⟩ | ⟨t, rfl, rfl⟩ := next_cases h
  · exact hs
  · cases hstmt with
    | copy hpc => exact (D.len_copyStmt ..).trans_lt hs
    | @update d n data hpc =>
      cases d with
      | read => exact Nat.mod_lt _ (Nat.two_pow_pos _)
      | write => exact Nat.mod_lt _ (Nat.two_pow_pos _)
    | clearBody hpc => exact Nat.two_pow_pos _
    | exit hpc =>
      rw [State.goto_dev, State.exitStmt_dev]
      exact hs
    | _ => exact hs
  · exact hs

theorem len_lt_init : D.machine.init.dev.len < 2 ^ D.layout.lenBits := Nat.two_pow_pos _

theorem compactsExactly_iff (hD : D ∈ fifoDrivers) (hs : s.dev.len < 2 ^ D.layout.lenBits) :
    CompactsExactly D s a ↔ TakesHalf s a := by
  have hlen : s.dev.len < 2 ^ D.layout.countBits :=
    hs.trans_le (Nat.pow_le_pow_right (by norm_num) (lenBits_le_of_mem hD))
  constructor
  · intro h t n out ha hpc hpos hn
    exact (FifoDev.compactionExact_iff hlen hpos hn).mp (h t n out ha hpc hpos hn)
  · intro h t n out ha hpc hpos hn
    exact (FifoDev.compactionExact_iff hlen hpos hn).mpr (h t n out ha hpc hpos hn)

end Fifo

open Fifo

/-- **The compaction of the read path.** In every state that a driver reaches, the compaction behind
`n` of the bytes held is exact if and only if these are at least half; and all compactions of a run
are exact if and only if each of them is behind at least half of the bytes held. -/
theorem compaction_iff {D : FifoDriver} (hD : D ∈ fifoDrivers) :
    (∀ s, D.machine.Reachable s → ∀ n, 1 ≤ n → n ≤ s.dev.len →
      (s.dev.CompactionExact D.layout n ↔ s.dev.len ≤ 2 * n)) ∧
    ∀ as, D.machine.Obeys (CompactsExactly D) D.machine.init as ↔
      D.machine.Obeys TakesHalf D.machine.init as := by
  constructor
  · intro s hs n hpos hn
    have hlen : s.dev.len < 2 ^ D.layout.lenBits :=
      D.machine.invariant (I := fun s => s.dev.len < 2 ^ D.layout.lenBits) len_lt_init
        (fun _ _ _ hs h => len_lt_of_next hs h) hs
    refine FifoDev.compactionExact_iff (hlen.trans_le ?_) hpos hn
    exact Nat.pow_le_pow_right (by norm_num) (lenBits_le_of_mem hD)
  · intro as
    constructor
    · intro h
      exact h.mono (fun s a hs => (compactsExactly_iff hD hs).mp)
        (fun _ _ _ hs _ h => len_lt_of_next hs h) len_lt_init
    · intro h
      exact h.mono (fun s a hs => (compactsExactly_iff hD hs).mpr)
        (fun _ _ _ hs _ h => len_lt_of_next hs h) len_lt_init

/-- A write of three bytes, from its entry to its return. -/
def globalfifoThreeBytes : List Fifo.Action :=
  .enter 0 (.blocking .write ⟨false, 3, fun _ => 7, .copied⟩) :: List.replicate 10 (.step 0)

theorem compaction_iff_two_of_three :
    ∃ s, globalfifoDriver.machine.run globalfifoThreeBytes = some s ∧
      (s.dev.CompactionExact globalfifoLayout 2 ↔ s.dev.len ≤ 2 * 2) :=
  ⟨_, rfl, (compaction_iff List.mem_cons_self).1 _ ⟨globalfifoThreeBytes, rfl⟩ 2 (by decide)
    (by decide)⟩

/-- **An overlapping copy.** Three bytes are written, and a read of one byte comes to its
compaction, which copies two bytes to the front from the byte behind it. -/
theorem globalfifo_overlapping_compaction :
    ∃ s out, globalfifoDriver.machine.run (globalfifoThreeBytes ++
        .enter 1 (.blocking .read ⟨false, 1, fun _ => 0, .copied⟩) ::
          List.replicate 4 (.step 1)) = some s ∧
      s.pc 1 = .shift 1 out ∧ s.dev.len = 3 ∧ ¬s.dev.CompactionExact globalfifoLayout 1 := by
  refine ⟨_, _, rfl, rfl, rfl, fun h => ?_⟩
  have htwo := (FifoDev.compactionExact_iff (by decide) le_rfl (by decide)).mp h
  exact absurd htwo (by decide)

end LinuxDriver
