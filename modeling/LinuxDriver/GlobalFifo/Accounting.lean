import LinuxDriver.Fifo.Calls
import LinuxDriver.GlobalFifo.Sleep

/-!
# What the return values of a FIFO driver account for

A caller that gets `r ≥ 0` from a read or a write goes on with the bytes behind the first `r`, and
one that gets an error tries again with all of them. That is right if a call returns the number of
bytes that it moved, and an error if it moved none. `globalfifo_write` of `misc/plat-misc.c` ends
with `return 0` in place of `return ret`: a caller is told neither of its bytes nor of an error.

## Main definitions

* `CallReturn.due`: the number of bytes that a call can move.
* `CallReturn.Moved`, `CallReturn.Unchanged`: what a call did to the bytes held.
* `CallReturn.Accounts`: the law of the return values.
* `CallReturn.Retries`, `CallReturn.leftover`: writes that each offer what the last one left.

## Main results

* `CallReturn.flatMap_appended`: with the law, retries transfer the data once.
* `globalfifo_accounts`: the law of `globalfifo/globalfifo.c`.
* `platMisc_accounts_iff`: in `misc/plat-misc.c` it is met by the reads, and by the writes of no
  byte.
-/

namespace LinuxDriver

namespace CallReturn

/-! ### The law -/

section Law

variable (L : FifoLayout) (r : CallReturn)

/-- The count of the call, converted at its entry. -/
def count : ℕ := r.call.count % 2 ^ L.countBits

/-- The bytes that there are to read, or the space that there is to write. -/
def available : ℕ :=
  match r.dir with
  | .read => r.before.len
  | .write => L.size - r.before.len

/-- The bytes that the call can move. -/
def due : ℕ := min (r.count L) (r.available L)

/-- A read took exactly `n` bytes from the front and delivered them, or a write appended exactly
`n` bytes of the user buffer to the back. -/
def Moved (n : ℕ) : Prop :=
  match r.dir with
  | .read => r.after.content = r.before.content.drop n ∧ r.out = r.before.content.take n
  | .write => r.after.content = r.before.content ++ r.call.buf.load 0 n

/-- The bytes held and their number are as before. -/
def Unchanged : Prop := r.after.len = r.before.len ∧ r.after.content = r.before.content

/-- The law of the return values: a value that is not negative is the number of bytes due, and
these were moved, and an error stands for a device as before. A call for no byte may report its
success although it changes nothing. -/
structure Accounts : Prop where
  moved_iff : 0 ≤ r.ret ↔ r.ret = r.due L ∧ r.Moved (r.due L)
  unchanged : r.ret < 0 → r.Unchanged
  reported : 0 < r.count L → r.Unchanged → r.ret < 0

end Law

variable {L : FifoLayout} {D : FifoDriver} {r : CallReturn}

theorem due_le_count : r.due L ≤ r.count L := min_le_left _ _

/-- Bytes moved change the device, unless there are none. -/
theorem not_unchanged_of_moved {n : ℕ} (hn : 0 < n) (hle : n ≤ r.available L)
    (h : r.Moved n) : ¬r.Unchanged := by
  rintro ⟨-, hcontent⟩
  have hlength := congrArg List.length hcontent
  cases hdir : r.dir with
  | read =>
    simp only [Moved, hdir] at h
    simp only [available, hdir] at hle
    rw [h.1, List.length_drop, FifoDev.length_content] at hlength
    omega
  | write =>
    simp only [Moved, hdir] at h
    rw [h, List.length_append, Buffer.length_load] at hlength
    omega

/-- A read that ends fails and leaves the device alone, or takes the bytes due. -/
theorem read_cases {dev dev' : FifoDev} {c : UserCall} {raw : ℤ} {out : List UInt8}
    (hlen : dev.len ≤ L.size) (h : readStretch L c dev = (dev', .ret raw out)) :
    (raw < 0 ∧ dev' = dev) ∨
    (raw = min (c.count % 2 ^ L.countBits) dev.len ∧ 0 < dev.len ∧
      dev'.content = dev.content.drop (min (c.count % 2 ^ L.countBits) dev.len) ∧
      out = dev.content.take (min (c.count % 2 ^ L.countBits) dev.len)) := by
  obtain ⟨-, hend, -⟩ | ⟨hdev, r, hneg, -, hend⟩ | ⟨n, hn, hcount, hne, rfl, hend⟩ :=
    readStretch_cases hlen h
  · cases hend
  · obtain ⟨rfl, -⟩ := Stretch.ret.inj hend
    exact .inl ⟨hneg, hdev⟩
  · obtain ⟨rfl, rfl⟩ := Stretch.ret.inj hend
    rw [← L.readCount_eq, ← hcount]
    exact .inr ⟨rfl, Nat.pos_of_ne_zero hne, FifoDev.content_consume_shiftDown L hlen hn, rfl⟩

/-- A write that ends fails and leaves the bytes held alone, or appends the bytes due. -/
theorem write_cases {dev dev' : FifoDev} {c : UserCall} {raw : ℤ} {out : List UInt8}
    (hlen : dev.len ≤ L.size) (h : writeStretch L c dev = (dev', .ret raw out)) :
    (raw < 0 ∧ dev'.len = dev.len ∧ dev'.content = dev.content) ∨
    (raw = min (c.count % 2 ^ L.countBits) (L.size - dev.len) ∧ 0 < L.size - dev.len ∧
      dev'.content = dev.content ++
        c.buf.load 0 (min (c.count % 2 ^ L.countBits) (L.size - dev.len))) := by
  obtain ⟨-, hend, -⟩ | ⟨hsame, hcontent, r, hneg, -, hend⟩ | ⟨n, hn, hcount, hne, rfl, hend⟩ :=
    writeStretch_cases hlen h
  · cases hend
  · obtain ⟨rfl, -⟩ := Stretch.ret.inj hend
    exact .inl ⟨hneg, hsame, hcontent⟩
  · obtain ⟨rfl, -⟩ := Stretch.ret.inj hend
    rw [← L.writeCount_eq hlen, ← hcount]
    exact .inr ⟨rfl, by omega, FifoDev.content_produce_fill L (by omega)⟩

/-- **The outcomes of a call.** It leaves a negative value in its variable and the device as it was,
or it passes the test of its loop, leaves the number of bytes due there and moves them. -/
theorem Made.cases (hr : r.Made D) (hlen : r.before.len ≤ D.layout.size) :
    (∃ raw < 0, r.ret = (D.code r.dir).result raw ∧ r.Unchanged) ∨
    (r.ret = (D.code r.dir).result (r.due D.layout) ∧ r.Moved (r.due D.layout) ∧
      0 < r.available D.layout) := by
  cases hr with
  | interrupt hafter hret =>
    exact .inl ⟨-erestartsys, by decide, hret, by rw [hafter], by rw [hafter]⟩
  | @stretch raw hstretch hret =>
    cases hdir : r.dir with
    | read =>
      rw [hdir] at hstretch hret
      simp only [Unchanged, Moved, due, available, count, hdir]
      obtain ⟨hneg, hafter⟩ | ⟨rfl, hpos, hcontent, hout⟩ := read_cases hlen hstretch
      · exact .inl ⟨raw, hneg, hret, by rw [hafter], by rw [hafter]⟩
      · exact .inr ⟨hret, ⟨hcontent, hout⟩, hpos⟩
    | write =>
      rw [hdir] at hstretch hret
      simp only [Unchanged, Moved, due, available, count, hdir]
      obtain ⟨hneg, hafter⟩ | ⟨rfl, hpos, hcontent⟩ := write_cases hlen hstretch
      · exact .inl ⟨raw, hneg, hret, hafter⟩
      · exact .inr ⟨hret, hcontent, hpos⟩

theorem due_pos (hcount : 0 < r.count L) (havailable : 0 < r.available L) : 0 < r.due L :=
  lt_min hcount havailable

/-- A call that returns what its variable holds meets the law. -/
theorem accounts_of_result_eq_id (hr : r.Made D) (hlen : r.before.len ≤ D.layout.size)
    (hresult : (D.code r.dir).result = id) : r.Accounts D.layout := by
  obtain ⟨raw, hneg, hret, hunchanged⟩ | ⟨hret, hmoved, hpos⟩ := hr.cases hlen
  · rw [hresult, id_eq] at hret
    refine ⟨iff_of_false (by omega) fun h => ?_, fun _ => hunchanged, fun _ _ => hret ▸ hneg⟩
    have hdue := h.1
    omega
  · rw [hresult, id_eq] at hret
    refine ⟨iff_of_true (by omega) ⟨hret, hmoved⟩, fun h => by omega, fun hcount h => ?_⟩
    exact absurd h (not_unchanged_of_moved (due_pos hcount hpos) (min_le_right _ _) hmoved)

/-- A write that returns zero whatever happened meets the law exactly if it is for no byte. -/
theorem accounts_iff_of_result_eq_zero (hr : r.Made D) (hlen : r.before.len ≤ D.layout.size)
    (hdir : r.dir = .write) (hresult : ∀ raw, (D.code r.dir).result raw = 0) :
    r.Accounts D.layout ↔ r.count D.layout = 0 := by
  have hret : r.ret = 0 := by
    obtain ⟨raw, -, hret, -⟩ | ⟨hret, -⟩ := hr.cases hlen
    · rw [hret, hresult]
    · rw [hret, hresult]
  constructor
  · intro h
    by_contra hcount
    obtain ⟨raw, -, -, hunchanged⟩ | ⟨-, hmoved, hpos⟩ := hr.cases hlen
    · have hneg := h.reported (Nat.pos_of_ne_zero hcount) hunchanged
      omega
    · have hdue := (h.moved_iff.mp hret.ge).1
      have hpos' := due_pos (Nat.pos_of_ne_zero hcount) hpos
      omega
  · intro hcount
    have hdue : r.due D.layout = 0 := by rw [due, hcount, Nat.zero_min]
    have hmoved : r.Moved 0 := by
      rw [Moved, hdir]
      obtain ⟨raw, -, -, hunchanged⟩ | ⟨-, hmoved, -⟩ := hr.cases hlen
      · simpa [Buffer.load_zero] using hunchanged.2
      · rw [hdue, Moved, hdir] at hmoved
        exact hmoved
    refine ⟨iff_of_true hret.ge ⟨by rw [hret, hdue]; rfl, hdue ▸ hmoved⟩, fun h => ?_, fun h => ?_⟩
    · omega
    · omega

/-! ### Writes that try again -/

/-- The bytes that a write appended. -/
def appended (r : CallReturn) : List UInt8 := r.after.content.drop r.before.content.length

/-- What is left of the data after a write of a caller that trusts the return value. -/
def rest (data : List UInt8) (r : CallReturn) : List UInt8 :=
  if 0 ≤ r.ret then data.drop r.ret.toNat else data

/-- What is left of the data after some writes. -/
def leftover (data : List UInt8) (rs : List CallReturn) : List UInt8 := rs.foldl rest data

variable (L) in
/-- The writes of a caller, each of which offers all that is left of the data. -/
def Retries : List UInt8 → List CallReturn → Prop
  | _, [] => True
  | data, r :: rs => r.dir = .write ∧ r.count L = data.length ∧
      r.call.buf.load 0 data.length = data ∧ Retries (rest data r) rs

/-- A write that meets the law appends what it takes off the data. -/
theorem appended_append_rest {data : List UInt8} (hacc : r.Accounts L) (hdir : r.dir = .write)
    (hcount : r.count L = data.length) (hbuf : r.call.buf.load 0 data.length = data) :
    r.appended ++ rest data r = data := by
  by_cases hret : 0 ≤ r.ret
  · obtain ⟨hdue, hmoved⟩ := hacc.moved_iff.mp hret
    have hle : r.due L ≤ data.length := due_le_count.trans hcount.le
    rw [Moved, hdir] at hmoved
    have happended : r.appended = data.take (r.due L) := by
      rw [appended, hmoved, List.drop_left, ← Buffer.take_load r.call.buf hle, hbuf]
    rw [happended, rest, if_pos hret, hdue, Int.toNat_natCast, List.take_append_drop]
  · have happended : r.appended = [] := by
      rw [appended, (hacc.unchanged (not_le.mp hret)).2, List.drop_length]
    rw [happended, rest, if_neg hret, List.nil_append]

/-- **Trying again.** With the law, the bytes appended by the writes of a caller are its data in
order, without what is left. -/
theorem flatMap_appended {data : List UInt8} {rs : List CallReturn} (h : Retries L data rs)
    (hacc : ∀ r ∈ rs, r.Accounts L) : rs.flatMap appended ++ leftover data rs = data := by
  induction rs generalizing data with
  | nil => rfl
  | cons r rs ih =>
    obtain ⟨hdir, hcount, hbuf, hrest⟩ := h
    have htail := ih hrest fun r' hr' => hacc r' (List.mem_cons_of_mem r hr')
    have hhead := appended_append_rest (hacc r List.mem_cons_self) hdir hcount hbuf
    calc (r :: rs).flatMap appended ++ leftover data (r :: rs)
        = r.appended ++ (rs.flatMap appended ++ leftover (rest data r) rs) := by
          rw [List.flatMap_cons, List.append_assoc, leftover, List.foldl_cons, ← leftover]
      _ = data := by rw [htail, hhead]

end CallReturn

open Fifo

/-- The return values of `globalfifo/globalfifo.c` meet the law. -/
theorem globalfifo_accounts {s : CallState} (hs : globalfifoDriver.calls.Reachable s) :
    ∀ r ∈ s.returned, r.Accounts globalfifoLayout := by
  intro r hr
  obtain ⟨hlen, hmade⟩ := (calls_invariant hs).returned r hr
  refine CallReturn.accounts_of_result_eq_id hmade hlen ?_
  cases r.dir <;> rfl

/-- **The return values of the platform driver.** In every history of calls, a return meets the law
if and only if it is of a read, or of a write of no byte. -/
theorem platMisc_accounts_iff {s : CallState} (hs : platMiscDriver.calls.Reachable s) :
    ∀ r ∈ s.returned, r.Accounts globalfifoLayout ↔
      r.dir = .read ∨ r.count globalfifoLayout = 0 := by
  intro r hr
  obtain ⟨hlen, hmade⟩ := (calls_invariant hs).returned r hr
  cases hdir : r.dir with
  | read =>
    have hresult : (platMiscDriver.code r.dir).result = id := by
      rw [hdir]
      rfl
    exact iff_of_true (CallReturn.accounts_of_result_eq_id hmade hlen hresult) (.inl rfl)
  | write =>
    have hresult : ∀ raw, (platMiscDriver.code r.dir).result raw = 0 := by
      rw [hdir]
      exact fun _ => rfl
    have hiff : r.Accounts globalfifoLayout ↔ r.count globalfifoLayout = 0 :=
      CallReturn.accounts_iff_of_result_eq_zero hmade hlen hdir hresult
    rw [hiff]
    exact (or_iff_right (by simp)).symm

/-- A write of one byte, and a read of it. -/
def platMiscOneByte : List CallAction :=
  [.call 0 .write ⟨false, 1, fun _ => 7, .copied⟩, .call 0 .read ⟨false, 1, fun _ => 0, .copied⟩]

theorem platMisc_accounts_iff_one_byte :
    ∃ s, platMiscDriver.calls.run platMiscOneByte = some s ∧
      ∀ r ∈ s.returned, r.Accounts globalfifoLayout ↔
        r.dir = .read ∨ r.count globalfifoLayout = 0 :=
  ⟨_, rfl, platMisc_accounts_iff ⟨platMiscOneByte, rfl⟩⟩

/-- **A write that is not reported.** One byte is appended to the empty device, and the write
returns zero. -/
theorem platMisc_unreported_write :
    ∃ s r, platMiscDriver.calls.run (platMiscOneByte.take 1) = some s ∧ s.returned = [r] ∧
      r.ret = 0 ∧ r.before.len = 0 ∧ r.after.len = 1 ∧ ¬r.Accounts globalfifoLayout := by
  refine ⟨_, _, rfl, rfl, rfl, rfl, rfl, fun h => ?_⟩
  exact absurd (h.moved_iff.mp le_rfl).1 (by decide)

end LinuxDriver
