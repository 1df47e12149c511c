import LinuxDriver.Fifo.Machine

/-!
# Read and write with the mutex held

Between `mutex_lock` and `mutex_unlock` a read or a write of a FIFO device runs from the test of
its wait loop either to the sleep of the loop or to its return. That stretch is a function of the
device and the call, the same after the first lock and after every lock following a sleep. It is
what the statements of `Fifo.Machine` do when no other task runs between them.

## Main definitions

* `Stretch`: how a stretch ends.
* `readStretch`, `writeStretch`, `stretch`.

## Main results

* `readStretch_cases`, `writeStretch_cases`: all that a stretch can do.
* `Fifo.runFrom_stretch`: the statements of a task make up its stretches.
-/

namespace LinuxDriver

/-- The end of a stretch: the task goes to sleep, or the call returns `ret` with the bytes `out`
in the user buffer. -/
inductive Stretch
  | sleep
  | ret (ret : ℤ) (out : List UInt8)

variable (L : FifoLayout)

/-- The stretch of a read, from the test `while (dev->len == 0)` on. -/
def readStretch (c : UserCall) (dev : FifoDev) : FifoDev × Stretch :=
  if dev.len = 0 then
    (dev, if c.nonblock then .ret (-eagain) [] else .sleep)
  else
    let n := L.readCount dev.len c.count
    match c.copy with
    | .faulted _ => (dev, .ret (-efault) [])
    | .copied => ((dev.shiftDown L n).consume L n, .ret (toCInt n) (dev.memory.load 0 n))

/-- The stretch of a write, from the test `while (dev->len == SIZE)` on. -/
def writeStretch (c : UserCall) (dev : FifoDev) : FifoDev × Stretch :=
  if dev.len = L.size then
    (dev, if c.nonblock then .ret (-eagain) [] else .sleep)
  else
    let n := L.writeCount dev.len c.count
    match c.copy with
    | .faulted junk => (dev.scribble junk n, .ret (-efault) [])
    | .copied => ((dev.fill c.buf n).produce L n, .ret (toCInt n) [])

variable {L} {c : UserCall} {dev dev' : FifoDev} {e : Stretch}

/-- **The stretches of a read.** It sleeps on an empty device, or fails, leaving the device as it
was, or takes `n` bytes from the front, delivers them and returns `n`. It fails with `-EAGAIN` on an
empty device, and with `-EFAULT` on another. -/
theorem readStretch_cases (hdev : dev.len ≤ L.size) (h : readStretch L c dev = (dev', e)) :
    (dev' = dev ∧ e = .sleep ∧ dev.len = 0 ∧ c.nonblock = false) ∨
    (dev' = dev ∧ ∃ r < 0, r = (if dev.len = 0 then -eagain else -efault) ∧ e = .ret r []) ∨
    (∃ n ≤ dev.len, n = L.readCount dev.len c.count ∧ dev.len ≠ 0 ∧
      dev' = (dev.shiftDown L n).consume L n ∧ e = .ret n (dev.content.take n)) := by
  unfold readStretch at h
  split_ifs at h with hlen hnb
  · obtain ⟨rfl, rfl⟩ := Prod.mk.inj h
    exact .inr (.inl ⟨rfl, -eagain, by decide, (if_pos hlen).symm, rfl⟩)
  · obtain ⟨rfl, rfl⟩ := Prod.mk.inj h
    exact .inl ⟨rfl, rfl, hlen, by simpa using hnb⟩
  · have hn : L.readCount dev.len c.count ≤ dev.len := L.readCount_le ..
    cases hcopy : c.copy with
    | faulted junk =>
      simp only [hcopy, Prod.mk.injEq] at h
      obtain ⟨rfl, rfl⟩ := h
      exact .inr (.inl ⟨rfl, -efault, by decide, (if_neg hlen).symm, rfl⟩)
    | copied =>
      have hint : toCInt (L.readCount dev.len c.count) = L.readCount dev.len c.count :=
        toCInt_of_lt ((hn.trans hdev).trans_lt L.size_lt_int)
      simp only [hcopy, hint, ← FifoDev.take_content hn, Prod.mk.injEq] at h
      obtain ⟨rfl, rfl⟩ := h
      exact .inr (.inr ⟨_, hn, rfl, hlen, rfl, rfl⟩)

/-- **The stretches of a write.** It sleeps on a full device, or fails, leaving the bytes held as
they were, or appends the first `n` bytes of the buffer, which fit, and returns `n`. It fails with
`-EAGAIN` on a full device, and with `-EFAULT` on another. -/
theorem writeStretch_cases (hdev : dev.len ≤ L.size) (h : writeStretch L c dev = (dev', e)) :
    (dev' = dev ∧ e = .sleep ∧ dev.len = L.size ∧ c.nonblock = false) ∨
    (dev'.len = dev.len ∧ dev'.content = dev.content ∧
      ∃ r < 0, r = (if dev.len = L.size then -eagain else -efault) ∧ e = .ret r []) ∨
    (∃ n ≤ L.size - dev.len, n = L.writeCount dev.len c.count ∧ dev.len ≠ L.size ∧
      dev' = (dev.fill c.buf n).produce L n ∧ e = .ret n []) := by
  unfold writeStretch at h
  split_ifs at h with hlen hnb
  · obtain ⟨rfl, rfl⟩ := Prod.mk.inj h
    exact .inr (.inl ⟨rfl, rfl, -eagain, by decide, (if_pos hlen).symm, rfl⟩)
  · obtain ⟨rfl, rfl⟩ := Prod.mk.inj h
    exact .inl ⟨rfl, rfl, hlen, by simpa using hnb⟩
  · have hn : L.writeCount dev.len c.count ≤ L.size - dev.len := L.writeCount_le hdev _
    cases hcopy : c.copy with
    | faulted junk =>
      simp only [hcopy, Prod.mk.injEq] at h
      obtain ⟨rfl, rfl⟩ := h
      exact .inr (.inl ⟨rfl, FifoDev.content_scribble .., -efault, by decide,
        (if_neg hlen).symm, rfl⟩)
    | copied =>
      have hint : toCInt (L.writeCount dev.len c.count) = L.writeCount dev.len c.count :=
        toCInt_of_lt ((hn.trans (Nat.sub_le ..)).trans_lt L.size_lt_int)
      simp only [hcopy, hint, Prod.mk.injEq] at h
      obtain ⟨rfl, rfl⟩ := h
      exact .inr (.inr ⟨_, hn, rfl, hlen, rfl, rfl⟩)

/-! ### The statements of a stretch -/

/-- The stretch of a call in either direction. -/
def stretch (L : FifoLayout) : Direction → UserCall → FifoDev → FifoDev × Stretch
  | .read => readStretch L
  | .write => writeStretch L

namespace Fifo

variable {D : FifoDriver} {s s' : State} {t n : ℕ} {d : Direction}

theorem runFrom_replicate_succ (h : D.stmt s t = some s') :
    D.machine.runFrom s (List.replicate (n + 1) (.step t)) =
      D.machine.runFrom s' (List.replicate n (.step t)) := by
  rw [List.replicate_succ, Lts.runFrom]
  exact congrArg (Option.bind · _) h

/-- From the update of `len` on, a task updates the device, wakes the other side, and comes to its
label. -/
theorem runFrom_update {m : ℕ} {data : List UInt8} (hpc : s.pc t = .update d m data) :
    ∃ s', D.machine.runFrom s (List.replicate 2 (.step t)) = some s' ∧
      s'.dev = D.updateStmt s.dev d m ∧ s'.history = FifoDriver.transfer d data :: s.history ∧
      s'.pc t = D.leaveBy d (D.code d).onDone (toCInt m) := by
  let s₁ := { s with
    dev := D.updateStmt s.dev d m
    history := FifoDriver.transfer d data :: s.history }.goto t (.wake d m)
  have hupdate : D.stmt s t = some s₁ := by simp [FifoDriver.stmt, hpc, s₁]
  have hwake : D.stmt s₁ t = some
      ((s₁.wakeUpInterruptible d.other).goto t (D.leaveBy d (D.code d).onDone (toCInt m))) := by
    simp [FifoDriver.stmt, s₁]
  exact ⟨_, (runFrom_replicate_succ hupdate).trans (runFrom_replicate_succ hwake), rfl, rfl,
    by simp⟩

/-- From a copy that succeeds, a task comes to the update of `len` that ends its stretch. -/
theorem runFrom_copy (hpc : s.pc t = .copy d c) (hcopy : c.copy = .copied)
    (hblocked : ¬D.blocked d s.dev.len) :
    ∃ k s' data out, D.machine.runFrom s (List.replicate k (.step t)) = some s' ∧
      s'.pc t = .update d data.length data ∧ s'.history = s.history ∧
      stretch D.layout d c s.dev =
        (D.updateStmt s'.dev d data.length, .ret (toCInt data.length) out) ∧
      (d = .read → out = data) := by
  cases d with
  | read =>
    let data := s.dev.memory.load 0 (D.layout.readCount s.dev.len c.count)
    have hlen : data.length = D.layout.readCount s.dev.len c.count := Buffer.length_load ..
    let s₁ := s.goto t (.shift data.length data)
    have hcopied : D.stmt s t = some s₁ := by
      simp [FifoDriver.stmt, hpc, FifoDriver.copyStmt, hcopy, s₁, data]
    have hshift : D.stmt s₁ t = some
        ({ s₁ with dev := s.dev.shiftDown D.layout data.length }.goto t
          (.update .read data.length data)) := by
      simp [FifoDriver.stmt, s₁]
    have hne : s.dev.len ≠ 0 := hblocked
    refine ⟨2, _, data, data,
      (runFrom_replicate_succ hcopied).trans (runFrom_replicate_succ hshift), by simp, rfl, ?_,
      fun _ => rfl⟩
    rw [hlen]
    simp [stretch, readStretch, hne, hcopy, FifoDriver.updateStmt, data]
  | write =>
    let data := c.buf.load 0 (D.layout.writeCount s.dev.len c.count)
    have hlen : data.length = D.layout.writeCount s.dev.len c.count := Buffer.length_load ..
    have hcopied : D.stmt s t = some
        ({ s with dev := s.dev.fill c.buf data.length }.goto t
          (.update .write data.length data)) := by
      simp [FifoDriver.stmt, hpc, FifoDriver.copyStmt, hcopy, data]
    have hne : s.dev.len ≠ D.layout.size := hblocked
    refine ⟨1, _, data, [], runFrom_replicate_succ hcopied, by simp, rfl, ?_, fun h => by cases h⟩
    rw [hlen]
    simp [stretch, writeStretch, hne, hcopy, FifoDriver.updateStmt]

/-- **The statements of a stretch.** From the test of its wait loop on, the statements of a task
that is not interrupted do to the device what the stretch does, up to the sleep of the loop or to
an exit label with the value that the stretch returns. -/
theorem runFrom_stretch (hpc : s.pc t = .test d c) :
    ∃ n s', D.machine.runFrom s (List.replicate n (.step t)) = some s' ∧
      s'.dev = (stretch D.layout d c s.dev).1 ∧
      (((stretch D.layout d c s.dev).2 = .sleep ∧ s'.pc t = .prepare d c ∧
          s'.history = s.history) ∨
        ∃ label r out, (stretch D.layout d c s.dev).2 = .ret r out ∧
          s'.pc t = D.leaveBy d label r ∧
          ((s'.history = s.history ∧ out = []) ∨
            ∃ data, s'.history = FifoDriver.transfer d data :: s.history ∧
              r = toCInt data.length ∧ (d = .read → out = data))) := by
  by_cases hblocked : D.blocked d s.dev.len
  · have htest : D.stmt s t = some (s.goto t
        (if c.nonblock then D.leaveBy d (D.code d).onAgain (-eagain) else .prepare d c)) := by
      simp [FifoDriver.stmt, hpc, hblocked]
    have hstretch : stretch D.layout d c s.dev =
        (s.dev, if c.nonblock then .ret (-eagain) [] else .sleep) := by
      cases d <;> exact if_pos hblocked
    refine ⟨1, _, runFrom_replicate_succ htest, by rw [hstretch]; rfl, ?_⟩
    rw [hstretch]
    cases hnb : c.nonblock with
    | false => exact .inl ⟨rfl, by simp, rfl⟩
    | true => exact .inr ⟨(D.code d).onAgain, -eagain, [], rfl, by simp, .inl ⟨rfl, rfl⟩⟩
  · have htest : D.stmt s t = some (s.goto t (.copy d c)) := by
      simp [FifoDriver.stmt, hpc, hblocked]
    have hcopied : D.stmt (s.goto t (.copy d c)) t =
        some ({ s with dev := (D.copyStmt s.dev d c).1 }.goto t (D.copyStmt s.dev d c).2) := by
      simp [FifoDriver.stmt, State.goto]
    cases hcopy : c.copy with
    | faulted junk =>
      refine ⟨2, _, (runFrom_replicate_succ htest).trans (runFrom_replicate_succ hcopied), ?_, ?_⟩
      · cases d <;> simp_all [stretch, readStretch, writeStretch, FifoDriver.copyStmt,
          FifoDriver.blocked]
      · refine .inr ⟨(D.code d).onFault, -efault, [], ?_, ?_, .inl ⟨rfl, rfl⟩⟩
        · cases d <;> simp_all [stretch, readStretch, writeStretch, FifoDriver.blocked]
        · cases d <;> simp [FifoDriver.copyStmt, hcopy]
    | copied =>
      obtain ⟨k, s₁, data, out, hrun, hpc₁, hhistory₁, hstretch, hout⟩ :=
        runFrom_copy (D := D) (s := s.goto t (.copy d c)) (t := t) (by simp) hcopy hblocked
      obtain ⟨s', hrun', hdev, hhistory, hpc'⟩ := runFrom_update hpc₁
      refine ⟨k + 2 + 1, s', ?_, ?_, ?_⟩
      · rw [runFrom_replicate_succ htest, List.replicate_add]
        exact D.machine.runFrom_append_eq_some.mpr ⟨s₁, hrun, hrun'⟩
      · rw [hdev]
        exact (congrArg Prod.fst hstretch).symm
      · refine .inr ⟨_, _, out, congrArg Prod.snd hstretch, hpc', .inr ⟨data, ?_, rfl, hout⟩⟩
        rw [hhistory, hhistory₁]
        rfl

end Fifo

end LinuxDriver
