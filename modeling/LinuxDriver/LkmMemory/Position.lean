import LinuxDriver.Kernel
import LinuxDriver.LkmMemory.Drivers
import LinuxDriver.Lts
import LinuxDriver.MachineInt

/-!
# The position of the first lkm_memory drivers

In `spinlock/hello.c` and `lkm-first.c` the device is one array, and a file has a position. A write
stores its bytes from the position on and moves the position behind them; a read moves the position
back over as many bytes as it returns. But `lkm_mem_read` copies the bytes from the position on,
before it moves, so that a reader gets the bytes behind those that were written, and behind the end
of the array when it is full.

## Main definitions

* `LkmFirst.File`, `LkmFirst.File.lkmMemRead`, `LkmFirst.File.lkmMemWrite`.
* `LkmFirst.History`: the file, and the value last stored at each offset by a successful write.
* `LkmFirst.Safe`: what a call may copy, and what it returns.
* `LkmFirst.ReadsNothing`: the reads that copy no byte.

## Main results

* `LkmFirst.safe_iff`: one call.
* `lkmFirst_safe_iff`: the calls of a run are safe if and only if no read copies a byte.
-/

namespace LinuxDriver

namespace LkmFirst

/-! ### The calls -/

/-- The position of the open file, and the memory from `dev->memory` on. The array is the first
`LKM_MEM_SIZE` bytes of it. -/
structure File where
  pos : ℕ
  memory : Buffer UInt8

/-- What a read or a write is called with, and what will happen to its copy. -/
structure PosCall where
  dir : Direction
  len : ℕ
  buf : Buffer UInt8
  copy : CopyOutcome

namespace File

variable (f : File) (c : PosCall)

/-- `if (count > ptmp) count = ptmp`, where `count` is an `unsigned int`. -/
def readCount : ℕ :=
  let count := c.len % 2 ^ 32
  if f.pos < count then f.pos else count

/-- `if (count > LKM_MEM_SIZE - ptmp) count = LKM_MEM_SIZE - ptmp`. -/
def writeCount : ℕ :=
  let count := c.len % 2 ^ 32
  if lkmMemSize - f.pos < count then lkmMemSize - f.pos else count

/-- The bytes of the memory that `copy_to_user` is called for. -/
def readRange : Set ℕ := Set.Ico f.pos (f.pos + f.readCount c)

/-- `lkm_mem_read` -/
def lkmMemRead : File × ℤ :=
  if f.pos = 0 then (f, 0)
  else
    match c.copy with
    | .faulted _ => (f, -efault)
    | .copied =>
      let count := f.readCount c
      ({ f with pos := f.pos - count }, toCInt count)

/-- `lkm_mem_write` -/
def lkmMemWrite : File × ℤ :=
  if lkmMemSize ≤ f.pos then (f, 0)
  else
    let count := f.writeCount c
    match c.copy with
    | .faulted junk => ({ f with memory := f.memory.store f.pos (junk.take count) }, -efault)
    | .copied =>
      ({ pos := f.pos + count, memory := f.memory.store f.pos (c.buf.load 0 count) },
        toCInt count)

/-- A call: the file after it, and the result. -/
def call : File × ℤ :=
  match c.dir with
  | .read => f.lkmMemRead c
  | .write => f.lkmMemWrite c

theorem readCount_le : f.readCount c ≤ f.pos := by
  simp only [readCount]
  split_ifs <;> omega

theorem writeCount_le : f.writeCount c ≤ lkmMemSize - f.pos := by
  simp only [writeCount]
  split_ifs <;> omega

variable {f c} in
theorem lkmMemRead_copied (hpos : f.pos ≠ 0) (hcopy : c.copy = .copied) :
    f.lkmMemRead c =
      (⟨f.pos - f.readCount c, f.memory⟩, toCInt (f.readCount c)) := by
  rw [lkmMemRead, if_neg hpos, hcopy]

variable {f c} in
theorem lkmMemRead_faulted {junk : List UInt8} (hpos : f.pos ≠ 0) (hcopy : c.copy = .faulted junk) :
    f.lkmMemRead c = (f, -efault) := by
  rw [lkmMemRead, if_neg hpos, hcopy]

variable {f c} in
theorem lkmMemWrite_copied (hpos : f.pos < lkmMemSize) (hcopy : c.copy = .copied) :
    f.lkmMemWrite c =
      (⟨f.pos + f.writeCount c, f.memory.store f.pos (c.buf.load 0 (f.writeCount c))⟩,
        toCInt (f.writeCount c)) := by
  rw [lkmMemWrite, if_neg (not_le.mpr hpos), hcopy]

variable {f c} in
theorem lkmMemWrite_faulted {junk : List UInt8} (hpos : f.pos < lkmMemSize)
    (hcopy : c.copy = .faulted junk) :
    f.lkmMemWrite c =
      (⟨f.pos, f.memory.store f.pos (junk.take (f.writeCount c))⟩, -efault) := by
  rw [lkmMemWrite, if_neg (not_le.mpr hpos), hcopy]

theorem readCount_eq_zero_iff : f.readCount c = 0 ↔ f.pos = 0 ∨ c.len % 2 ^ 32 = 0 := by
  simp only [readCount]
  split_ifs <;> omega

end File

/-! ### Histories -/

/-- The file, and the value that a successful write stored last at each offset. -/
structure History where
  file : File
  stored : ℕ → Option UInt8

/-- The values stored after a call. -/
def History.storedAfter (s : History) (c : PosCall) (i : ℕ) : Option UInt8 :=
  if c.dir = .write ∧ c.copy = .copied ∧ s.file.pos ≤ i ∧ i < s.file.pos + s.file.writeCount c
  then some (c.buf (i - s.file.pos)) else s.stored i

/-- The calls on one open file. -/
def calls : Lts History PosCall where
  init := ⟨⟨0, fun _ => 0⟩, fun _ => none⟩
  next s c := some ⟨(s.file.call c).1, s.storedAfter c⟩

/-- A read copies only bytes of the array, of which each is the last one that a successful write
stored there; the position stays in the array or at its end; and the result is the distance that
the position has moved, or an error of a call that has not moved it. -/
structure Safe (s : History) (c : PosCall) : Prop where
  inside : c.dir = .read → s.file.readRange c ⊆ Set.Ico 0 lkmMemSize
  lastStored : c.dir = .read → ∀ i ∈ s.file.readRange c, s.stored i = some (s.file.memory i)
  pos_le : (s.file.call c).1.pos ≤ lkmMemSize
  ret_eq : 0 ≤ (s.file.call c).2 →
    (s.file.call c).2 = |((s.file.call c).1.pos : ℤ) - s.file.pos|
  failed : (s.file.call c).2 < 0 → (s.file.call c).1.pos = s.file.pos

/-- A read is for no byte, or finds the position at the start. -/
def ReadsNothing (s : History) (c : PosCall) : Prop :=
  c.dir = .read → s.file.pos = 0 ∨ c.len % 2 ^ 32 = 0

/-- The invariant of the runs in which no read copies a byte: what was stored is what is held below
the position. -/
structure Inv (s : History) : Prop where
  pos_le : s.file.pos ≤ lkmMemSize
  stored_eq : ∀ i, s.stored i = if i < s.file.pos then some (s.file.memory i) else none

theorem inv_init : Inv calls.init := ⟨Nat.zero_le _, fun _ => rfl⟩

/-! ### One call -/

variable {s : History} {c : PosCall}

theorem toCInt_count {n : ℕ} (h : n ≤ lkmMemSize) : toCInt n = n :=
  toCInt_of_lt (h.trans_lt (by decide))

/-- The position and the result of a read. -/
theorem read_pos_ret {f : File} (hf : f.pos ≤ lkmMemSize) (c : PosCall) :
    ((f.lkmMemRead c).1.pos = f.pos ∧ (f.lkmMemRead c).2 ≤ 0) ∨
    ((f.lkmMemRead c).1.pos = f.pos - f.readCount c ∧ (f.lkmMemRead c).2 = f.readCount c) := by
  have hneg : -efault ≤ 0 := by decide
  have hint : toCInt (f.readCount c) = f.readCount c :=
    toCInt_count ((f.readCount_le c).trans hf)
  by_cases hpos : f.pos = 0
  · rw [File.lkmMemRead, if_pos hpos]
    exact .inl ⟨rfl, le_rfl⟩
  · cases hcopy : c.copy with
    | faulted junk =>
      rw [File.lkmMemRead_faulted hpos hcopy]
      exact .inl ⟨rfl, hneg⟩
    | copied =>
      rw [File.lkmMemRead_copied hpos hcopy]
      dsimp only
      exact .inr ⟨rfl, hint⟩

/-- The position and the result of a write. -/
theorem write_pos_ret (f : File) (c : PosCall) :
    ((f.lkmMemWrite c).1.pos = f.pos ∧ (f.lkmMemWrite c).2 ≤ 0) ∨
    ((f.lkmMemWrite c).1.pos = f.pos + f.writeCount c ∧
      (f.lkmMemWrite c).2 = f.writeCount c ∧ f.pos < lkmMemSize) := by
  have hneg : -efault ≤ 0 := by decide
  have hint : toCInt (f.writeCount c) = f.writeCount c :=
    toCInt_count ((f.writeCount_le c).trans (Nat.sub_le ..))
  by_cases hpos : f.pos < lkmMemSize
  · cases hcopy : c.copy with
    | faulted junk =>
      rw [File.lkmMemWrite_faulted hpos hcopy]
      exact .inl ⟨rfl, hneg⟩
    | copied =>
      rw [File.lkmMemWrite_copied hpos hcopy]
      dsimp only
      exact .inr ⟨rfl, hint, hpos⟩
  · rw [File.lkmMemWrite, if_pos (not_lt.mp hpos)]
    exact .inl ⟨rfl, le_rfl⟩

/-- Whatever the call is, the position stays in range, and the result says how far it has moved. -/
theorem call_pos_ret {f : File} (hf : f.pos ≤ lkmMemSize) (c : PosCall) :
    (f.call c).1.pos ≤ lkmMemSize ∧
    (0 ≤ (f.call c).2 → (f.call c).2 = |((f.call c).1.pos : ℤ) - f.pos|) ∧
    ((f.call c).2 < 0 → (f.call c).1.pos = f.pos) := by
  cases hdir : c.dir with
  | read =>
    simp only [File.call, hdir]
    have hn := f.readCount_le c
    obtain ⟨hpos, hret⟩ | ⟨hpos, hret⟩ := read_pos_ret hf c
    · refine ⟨hpos ▸ hf, fun h => ?_, fun _ => hpos⟩
      rw [hpos, sub_self, abs_zero]
      omega
    · refine ⟨by omega, fun _ => ?_, fun h => by omega⟩
      rw [hpos, hret, Nat.cast_sub hn, sub_sub_cancel_left, abs_neg, Nat.abs_cast]
  | write =>
    simp only [File.call, hdir]
    have hn := f.writeCount_le c
    obtain ⟨hpos, hret⟩ | ⟨hpos, hret, hlt⟩ := write_pos_ret f c
    · refine ⟨hpos ▸ hf, fun h => ?_, fun _ => hpos⟩
      rw [hpos, sub_self, abs_zero]
      omega
    · refine ⟨by omega, fun _ => ?_, fun h => by omega⟩
      rw [hpos, hret, Nat.cast_add, add_sub_cancel_left, Nat.abs_cast]

/-- **One call.** While no read has copied a byte, a call is safe exactly if it does not either: the
first byte that a read copies is the one at the position, where nothing was stored. -/
theorem safe_iff (hs : Inv s) : Safe s c ↔ ReadsNothing s c := by
  constructor
  · intro h hdir
    rw [← File.readCount_eq_zero_iff]
    by_contra hcount
    have hmem : s.file.pos ∈ s.file.readRange c := ⟨le_rfl, by omega⟩
    have hstored := h.lastStored hdir _ hmem
    rw [hs.stored_eq, if_neg (lt_irrefl _)] at hstored
    cases hstored
  · intro h
    have hrange : c.dir = .read → s.file.readRange c = ∅ := by
      intro hdir
      rw [File.readRange, (File.readCount_eq_zero_iff _ _).mpr (h hdir), Nat.add_zero]
      exact Set.Ico_self _
    obtain ⟨hpos, hret, hfailed⟩ := call_pos_ret hs.pos_le c
    refine ⟨fun hdir => ?_, fun hdir i hi => ?_, hpos, hret, hfailed⟩
    · rw [hrange hdir]
      exact Set.empty_subset _
    · rw [hrange hdir] at hi
      exact absurd hi (Set.notMem_empty i)

/-- A read that copies no byte leaves the file as it was. -/
theorem read_of_readCount_eq_zero {f : File} (h : f.readCount c = 0) :
    (f.lkmMemRead c).1 = f := by
  by_cases hpos : f.pos = 0
  · rw [File.lkmMemRead, if_pos hpos]
  · cases hcopy : c.copy with
    | faulted junk => rw [File.lkmMemRead_faulted hpos hcopy]
    | copied => rw [File.lkmMemRead_copied hpos hcopy, h, Nat.sub_zero]

/-- What a write stores: nothing below the position, and the values of the buffer if it succeeds. -/
theorem storedAfter_write (hs : Inv s) (hdir : c.dir = .write) (i : ℕ) :
    s.storedAfter c i = if i < (s.file.lkmMemWrite c).1.pos
      then some ((s.file.lkmMemWrite c).1.memory i) else none := by
  by_cases hpos : s.file.pos < lkmMemSize
  · cases hcopy : c.copy with
    | faulted junk =>
      rw [File.lkmMemWrite_faulted hpos hcopy, History.storedAfter, if_neg (by simp [hcopy]),
        hs.stored_eq]
      dsimp only
      split_ifs with hi
      · rw [Buffer.store_apply_of_lt _ _ hi]
      · rfl
    | copied =>
      rw [File.lkmMemWrite_copied hpos hcopy, History.storedAfter]
      dsimp only
      by_cases hi : i < s.file.pos
      · rw [if_neg (by omega), if_pos (by omega), hs.stored_eq, if_pos hi,
          Buffer.store_apply_of_lt _ _ hi]
      · obtain ⟨k, rfl⟩ := Nat.exists_eq_add_of_le (not_lt.mp hi)
        by_cases hk : k < s.file.writeCount c
        · rw [if_pos ⟨hdir, hcopy, by omega, by omega⟩, if_pos (by omega),
            Buffer.store_apply_add _ _ _ _ (by simpa using hk), Buffer.getElem_load,
            Nat.add_sub_cancel_left, Nat.zero_add]
        · rw [if_neg (by omega), if_neg (by omega), hs.stored_eq, if_neg (by omega)]
  · have hfull : s.file.writeCount c = 0 := by
      have hn := s.file.writeCount_le c
      omega
    rw [File.lkmMemWrite, if_pos (not_lt.mp hpos), History.storedAfter, if_neg (by omega),
      hs.stored_eq]

/-- The step lemma. -/
theorem Inv.next {s' : History} (hs : Inv s) (hc : ReadsNothing s c)
    (h : calls.next s c = some s') : Inv s' := by
  obtain rfl := Option.some.inj h
  refine ⟨(call_pos_ret hs.pos_le c).1, fun i => ?_⟩
  change s.storedAfter c i =
    if i < (s.file.call c).1.pos then some ((s.file.call c).1.memory i) else none
  cases hdir : c.dir with
  | read =>
    have hsame : (s.file.call c).1 = s.file := by
      rw [File.call, hdir]
      exact read_of_readCount_eq_zero ((File.readCount_eq_zero_iff _ _).mpr (hc hdir))
    rw [hsame, ← hs.stored_eq, History.storedAfter, if_neg (by simp [hdir])]
  | write =>
    have hwrite : s.file.call c = s.file.lkmMemWrite c := by
      rw [File.call, hdir]
    rw [hwrite]
    exact storedAfter_write hs hdir i

end LkmFirst

open LkmFirst

/-- **The position of the first lkm_memory drivers.** All calls of a run are safe if and only if no
read of the run copies a byte. -/
theorem lkmFirst_safe_iff (cs : List PosCall) :
    LkmFirst.calls.Obeys Safe LkmFirst.calls.init cs ↔
      LkmFirst.calls.Obeys ReadsNothing LkmFirst.calls.init cs := by
  constructor
  · intro h
    exact h.mono (fun _ _ hs => (safe_iff hs).mp)
      (fun _ _ _ hs hsafe hnext => hs.next ((safe_iff hs).mp hsafe) hnext) inv_init
  · intro h
    exact h.mono (fun _ _ hs => (safe_iff hs).mpr) (fun _ _ _ hs hc hnext => hs.next hc hnext)
      inv_init

/-- **A read behind the end.** The array is filled, and a read of one byte copies the byte behind
it. -/
theorem lkmFirst_read_behind_end :
    ¬LkmFirst.calls.Obeys Safe LkmFirst.calls.init
      [⟨.write, 1024, fun _ => 7, .copied⟩, ⟨.read, 1, fun _ => 0, .copied⟩] := by
  intro h
  have hinside := (h.2 _ rfl).1.inside rfl
  have hend : 1024 ∈ Set.Ico 0 lkmMemSize := hinside ⟨by decide, by decide⟩
  exact absurd hend.2 (by decide)

end LinuxDriver
