import LinuxDriver.DwMmc.PartBuf

/-!
# Programmed writes of a dw_mmc host

A push first fills the word in `part_buf`, then writes whole words to the FIFO and keeps the rest.
The rest is written too when the transfer is complete. That test stands under the condition that
this call has a rest after its whole words, so a last call that only adds to `part_buf`, without
filling it, writes nothing.

## Main definitions

* `pushAligned`, `pushUnaligned`: the two loops over the whole words.
* `dwMciPushData16`, `dwMciPushData32`, `dwMciPushData64`.
* `dwMciWriteDataPio`, `writeRun`: a call with the count of transferred bytes, and a transfer.
* `StrandsTail`: the last call only adds to `part_buf`.

## Main results

* `pushUnaligned_eq`: both loops do the same.
* `pushWords_spec`: what a call adds to the words and to `part_buf`.
* `writeRun_held`: before the last call, nothing is lost.
* `writeRun_complete_iff`: the transfer is complete unless the tail is stranded.
-/

namespace LinuxDriver.DwMmc

/-! ### The functions -/

/-- The fields of `struct mmc_data` about the length of a transfer. -/
structure MmcData where
  blksz : ℕ
  blocks : ℕ
  bytesXfered : ℕ

/-- `data->blksz * data->blocks`, an `unsigned int`. -/
def MmcData.expected (data : MmcData) : ℕ := data.blksz * data.blocks % 2 ^ 32

/-- The loop that writes a number of words. -/
def pushItems (w : ℕ) : ℕ → List UInt8 → List ℕ
  | 0, _ => []
  | items + 1, buf => leWord (buf.take w) :: pushItems w items (buf.drop w)

/-- The loop for aligned buffers: the words written, and the bytes left. The loop takes `w` off
`cnt` for as long as it can. -/
def pushAligned (w : ℕ) (buf : List UInt8) : List ℕ × List UInt8 :=
  (pushItems w (buf.length / w) buf, buf.drop (w * (buf.length / w)))

/-- The loop for other buffers, with as many words in a round as `aligned_buf` has room for. -/
def pushUnaligned (w : ℕ) (buf : List UInt8) : List ℕ × List UInt8 :=
  if _h : 0 < w ∧ w ∣ alignedBufSize ∧ w ≤ buf.length then
    -- `cnt & -w` is `cnt` without the bytes of a last, partial word
    let len := min (buf.length - buf.length % w) alignedBufSize
    let rest := pushUnaligned w (buf.drop len)
    (pushItems w (len / w) (buf.take len) ++ rest.1, rest.2)
  else ([], buf)
termination_by buf.length
decreasing_by
  have hmod : buf.length % w < w := Nat.mod_lt _ _h.1
  have hsize : 0 < alignedBufSize := Nat.succ_pos 127
  rw [List.length_drop]
  omega

/-- The word in `part_buf`. -/
def DwMci.partWord (w : ℕ) (host : DwMci) : ℕ := leWord (host.partBuf.load 0 w)

/-- The first step of a push: the words written, the bytes left, and the host. -/
def pushPart (w : ℕ) (buf : List UInt8) (host : DwMci) : List ℕ × List UInt8 × DwMci :=
  if host.partBufCount = 0 then ([], buf, host)
  else
    let part := dwMciPushPartBytes w host buf
    if part.2.partBufCount = w then
      ([part.2.partWord w], buf.drop part.1, { part.2 with partBufCount := 0 })
    else ([], buf.drop part.1, part.2)

/-- The last step of a push, with all bytes of the call in `initCnt`. -/
def pushRest (w : ℕ) (data : MmcData) (initCnt : ℕ) (buf : List UInt8) (host : DwMci) :
    List ℕ × DwMci :=
  if buf.length = 0 then ([], host)
  else
    let host := dwMciSetPartBytes host buf
    if (data.bytesXfered + initCnt) % 2 ^ 32 = data.expected then ([host.partWord w], host)
    else ([], host)

/-- What `dw_mci_push_data16`, `dw_mci_push_data32` and `dw_mci_push_data64` do, for words of `w`
bytes: the words written, and the host. `efficient` is the configuration option
`HAVE_EFFICIENT_UNALIGNED_ACCESS`. -/
def pushWords (w : ℕ) (efficient : Bool) (data : MmcData) (addr : ℕ) (buf : List UInt8)
    (host : DwMci) : List ℕ × DwMci :=
  let part := pushPart w buf host
  let addr := addr + (buf.length - part.2.1.length)
  let whole :=
    if efficient = false ∧ addr &&& (w - 1) ≠ 0 then pushUnaligned w part.2.1
    else pushAligned w part.2.1
  let rest := pushRest w data buf.length whole.2 part.2.2
  (part.1 ++ whole.1 ++ rest.1, rest.2)

def dwMciPushData16 := pushWords 2

def dwMciPushData32 := pushWords 4

def dwMciPushData64 := pushWords 8

/-- `host->push_data`, as `dw_mci_probe` sets it. -/
def DataWidth.pushData : DataWidth → Bool → MmcData → ℕ → List UInt8 → DwMci → List ℕ × DwMci
  | bits16 => dwMciPushData16
  | bits32 => dwMciPushData32
  | bits64 => dwMciPushData64

/-- A transfer: its data, the host, and the words that are written to the FIFO. -/
structure Transfer where
  data : MmcData
  host : DwMci
  written : List ℕ

/-- A call in `dw_mci_write_data_pio`, with its address and its bytes. -/
def dwMciWriteDataPio (width : DataWidth) (efficient : Bool) (t : Transfer)
    (call : ℕ × List UInt8) : Transfer :=
  let done := width.pushData efficient t.data call.1 call.2 t.host
  { data := { t.data with bytesXfered := (t.data.bytesXfered + call.2.length) % 2 ^ 32 }
    host := done.2
    written := t.written ++ done.1 }

/-- The calls of a transfer from its start. -/
def writeRun (width : DataWidth) (efficient : Bool) (blksz blocks : ℕ) (host : DwMci)
    (calls : List (ℕ × List UInt8)) : Transfer :=
  calls.foldl (dwMciWriteDataPio width efficient) ⟨⟨blksz, blocks, 0⟩, dwMciSubmitData host, []⟩

/-- The bytes of the calls. -/
def bytesOf (calls : List (ℕ × List UInt8)) : List UInt8 := calls.flatMap Prod.snd

/-- The words that are written, as bytes. -/
def Transfer.laidOut (w : ℕ) (t : Transfer) : List UInt8 := t.written.flatMap (leBytes w)

/-- A call only adds to the word in `part_buf`. -/
def Strands (w : ℕ) (host : DwMci) (buf : List UInt8) : Prop :=
  host.partBufCount ≠ 0 ∧ host.partBufCount + buf.length < w

instance (w : ℕ) (host : DwMci) (buf : List UInt8) : Decidable (Strands w host buf) :=
  inferInstanceAs (Decidable (_ ∧ _))

/-- The last call adds to a word in `part_buf` and does not fill it. -/
def StrandsTail (w : ℕ) (calls : List (ℕ × List UInt8)) : Prop :=
  ∃ before last, calls = before ++ [last] ∧ (bytesOf before).length % w ≠ 0 ∧
    (bytesOf before).length % w + last.2.length < w

/-! ### The two loops -/

section Loops

variable {w : ℕ}

/-- The words are the first bytes. -/
theorem flatMap_pushItems {items : ℕ} {buf : List UInt8} (h : w * items ≤ buf.length) :
    (pushItems w items buf).flatMap (leBytes w) = buf.take (w * items) := by
  induction items generalizing buf with
  | zero => simp [pushItems]
  | succ items ih =>
    rw [Nat.mul_succ] at h
    have htake : (buf.take w).length = w := by
      rw [List.length_take]
      omega
    have hword := leBytes_leWord htake.le
    rw [htake, Nat.sub_self, List.replicate_zero, List.append_nil] at hword
    rw [pushItems, List.flatMap_cons, hword, ih (by rw [List.length_drop]; omega), Nat.mul_succ,
      Nat.add_comm, List.take_add]

theorem pushItems_add (a b : ℕ) (buf : List UInt8) :
    pushItems w (a + b) buf = pushItems w a buf ++ pushItems w b (buf.drop (w * a)) := by
  induction a generalizing buf with
  | zero => simp [pushItems]
  | succ a ih =>
    rw [Nat.add_right_comm, pushItems, pushItems, ih, List.cons_append, List.drop_drop,
      Nat.mul_succ, Nat.add_comm w]

theorem pushItems_take {items n : ℕ} (h : w * items ≤ n) (buf : List UInt8) :
    pushItems w items (buf.take n) = pushItems w items buf := by
  induction items generalizing buf n with
  | zero => rfl
  | succ items ih =>
    rw [Nat.mul_succ] at h
    rw [pushItems, pushItems, List.take_take, min_eq_left (by omega), List.drop_take,
      ih (by omega)]

/-- **The two loops.** A buffer that is not aligned is written as the same words. -/
theorem pushUnaligned_eq (hw : 0 < w) (hdvd : w ∣ alignedBufSize) (buf : List UInt8) :
    pushUnaligned w buf = pushAligned w buf := by
  induction hn : buf.length using Nat.strong_induction_on generalizing buf with
  | _ n ih =>
    by_cases hle : w ≤ buf.length
    · obtain ⟨items, hitems, hpos, hlebuf, hdiv⟩ := alignedLen_eq hw hdvd hle
      rw [pushUnaligned, dif_pos ⟨hw, hdvd, hle⟩]
      dsimp only
      rw [hitems, Nat.mul_div_cancel_left _ hw, ih (buf.length - w * items) (by omega) _
        List.length_drop, pushAligned, pushAligned, List.length_drop, pushItems_take le_rfl, hdiv,
        pushItems_add, List.drop_drop, Nat.mul_add]
    · have hlt : buf.length < w := Nat.not_le.mp hle
      rw [pushUnaligned, dif_neg fun h => hle h.2.2, pushAligned, Nat.div_eq_of_lt hlt]
      rfl

@[simp] theorem pushAligned_nil (w : ℕ) : pushAligned w [] = ([], []) := by
  simp [pushAligned, pushItems]

/-- The loop over the whole words writes all bytes but the rest. -/
theorem pushAligned_spec (hw : 0 < w) (buf : List UInt8) :
    (pushAligned w buf).1.flatMap (leBytes w) ++ (pushAligned w buf).2 = buf ∧
      (pushAligned w buf).2.length < w := by
  have hmod : buf.length % w < w := Nat.mod_lt _ hw
  have hdiv : w * (buf.length / w) + buf.length % w = buf.length := Nat.div_add_mod _ _
  constructor
  · rw [pushAligned, flatMap_pushItems (by omega), List.take_append_drop]
  · rw [pushAligned, List.length_drop]
    omega

end Loops

/-! ### One call -/

section Call

variable {w : ℕ} {buf : List UInt8} {host : DwMci}

/-- The bytes of the word in `part_buf`. -/
theorem leBytes_partWord (w : ℕ) (host : DwMci) :
    leBytes w (host.partWord w) = host.partBuf.load 0 w := by
  have hlen : (host.partBuf.load 0 w).length = w := Buffer.length_load _ _ _
  rw [DwMci.partWord, leBytes_leWord hlen.le, hlen, Nat.sub_self, List.replicate_zero,
    List.append_nil]

/-- The bytes that are added to `part_buf` are behind the ones there. -/
theorem part_dwMciPushPartBytes (w : ℕ) (host : DwMci) (buf : List UInt8) :
    (dwMciPushPartBytes w host buf).2.part 0 =
      host.part 0 ++ buf.take (min buf.length (w - host.partBufCount)) := by
  have htake : (buf.take (min buf.length (w - host.partBufCount))).length =
      min buf.length (w - host.partBufCount) := by
    rw [List.length_take]
    omega
  have hself := Buffer.load_store_self host.partBuf host.partBufCount
    (buf.take (min buf.length (w - host.partBufCount)))
  rw [htake] at hself
  rw [DwMci.part, dwMciPushPartBytes]
  dsimp only
  rw [Buffer.load_add, Nat.zero_add, hself, Buffer.load_store_of_disjoint _ _ (.inl (by omega)),
    DwMci.part]

/-- **The first step.** Either all bytes are added to `part_buf`, or nothing is left there. -/
theorem pushPart_spec (hcount : host.partBufCount < w) :
    (pushPart w buf host).1.flatMap (leBytes w) ++
        ((pushPart w buf host).2.2.part 0 ++ (pushPart w buf host).2.1) = host.part 0 ++ buf ∧
      (Strands w host buf ∧ (pushPart w buf host).2.1 = [] ∧
          (pushPart w buf host).2.2.partBufCount < w ∨
        ¬Strands w host buf ∧ (pushPart w buf host).2.2.partBufCount = 0) := by
  by_cases hzero : host.partBufCount = 0
  · rw [pushPart, if_pos hzero]
    exact ⟨rfl, .inr ⟨fun h => h.1 hzero, hzero⟩⟩
  · have hpart := part_dwMciPushPartBytes w host buf
    rw [pushPart, if_neg hzero]
    dsimp only
    by_cases hfull : (dwMciPushPartBytes w host buf).2.partBufCount = w
    · have hword := leBytes_partWord w (dwMciPushPartBytes w host buf).2
      rw [DwMci.part, hfull, ← hword] at hpart
      rw [if_pos hfull]
      refine ⟨?_, .inr ⟨fun h => ?_, rfl⟩⟩
      · change _ ++ ([] ++ _) = _
        rw [List.flatMap_singleton, hpart, List.nil_append, List.append_assoc, dwMciPushPartBytes,
          List.take_append_drop]
      · have hlt := h.2
        rw [dwMciPushPartBytes] at hfull
        dsimp only at hfull
        omega
    · rw [if_neg hfull]
      rw [dwMciPushPartBytes] at hfull
      dsimp only at hfull
      refine ⟨?_, .inl ⟨⟨hzero, by omega⟩, ?_, ?_⟩⟩
      · rw [hpart, List.flatMap_nil, List.nil_append, List.append_assoc, dwMciPushPartBytes,
          List.take_append_drop]
      · rw [dwMciPushPartBytes, List.drop_eq_nil_iff]
        dsimp only
        omega
      · rw [dwMciPushPartBytes]
        dsimp only
        omega

/-- **One call.** The words and `part_buf` have all bytes so far, and the word in `part_buf` is
written at the end of the transfer, unless it is only added to. -/
theorem pushWords_spec (hw : 0 < w) (hdvd : w ∣ alignedBufSize) (efficient : Bool) (data : MmcData)
    (addr : ℕ) (hcount : host.partBufCount < w) :
    ∃ words host', words.flatMap (leBytes w) ++ host'.part 0 = host.part 0 ++ buf ∧
      host'.partBufCount < w ∧
      pushWords w efficient data addr buf host =
        (words ++
          if host'.partBufCount ≠ 0 ∧ ¬Strands w host buf ∧
            (data.bytesXfered + buf.length) % 2 ^ 32 = data.expected
          then [host'.partWord w] else [],
          host') := by
  obtain ⟨hbytes, hcases⟩ := @pushPart_spec w buf host hcount
  obtain ⟨hwhole, hrest⟩ := pushAligned_spec hw (pushPart w buf host).2.1
  rw [pushWords]
  rw [pushUnaligned_eq hw hdvd, ite_self]
  generalize pushPart w buf host = part at *
  obtain ⟨words, buf', host₁⟩ := part
  dsimp only at hbytes hcases hwhole hrest ⊢
  rcases hcases with ⟨hstrands, rfl, hlt⟩ | ⟨hstrands, hzero⟩
  · refine ⟨words, host₁, ?_, hlt, ?_⟩
    · rw [← hbytes, List.append_nil]
    · have hnone : pushRest w data buf.length [] host₁ = ([], host₁) := rfl
      rw [if_neg fun h => h.2.1 hstrands, pushAligned_nil, hnone, List.append_nil, List.append_nil]
  · generalize pushAligned w buf' = whole at *
    obtain ⟨words', rest⟩ := whole
    dsimp only at hwhole hrest ⊢
    rw [DwMci.part_eq_nil hzero, List.nil_append] at hbytes
    rw [pushRest]
    by_cases hnil : rest.length = 0
    · refine ⟨words ++ words', host₁, ?_, hzero ▸ hw, ?_⟩
      · rw [List.length_eq_zero_iff.mp hnil, List.append_nil] at hwhole
        rw [DwMci.part_eq_nil hzero, List.append_nil, List.flatMap_append, hwhole, hbytes]
      · rw [if_pos hnil, if_neg fun h => h.1 hzero]
    · have hpart : (dwMciSetPartBytes host₁ rest).part 0 = rest := by
        rw [DwMci.part, dwMciSetPartBytes]
        exact Buffer.load_store_self host₁.partBuf 0 rest
      refine ⟨words ++ words', dwMciSetPartBytes host₁ rest, ?_, hrest, ?_⟩
      · rw [hpart, List.flatMap_append, List.append_assoc, hwhole, hbytes]
      · rw [if_neg hnil]
        dsimp only
        by_cases hreached : (data.bytesXfered + buf.length) % 2 ^ 32 = data.expected
        · rw [if_pos hreached, if_pos ⟨hnil, hstrands, hreached⟩]
        · rw [if_neg hreached, if_neg fun h => hreached h.2.2]

theorem DataWidth.pushData_eq (width : DataWidth) : width.pushData = pushWords width.bytes := by
  cases width <;> rfl

end Call

/-! ### All calls -/

section Run

variable {width : DataWidth} {efficient : Bool} {blksz blocks : ℕ} {host : DwMci}

/-- Nothing is lost: the words and `part_buf` have the bytes of the calls. -/
structure Held (width : DataWidth) (blksz blocks : ℕ) (calls : List (ℕ × List UInt8))
    (t : Transfer) : Prop where
  data : t.data = ⟨blksz, blocks, (bytesOf calls).length⟩
  bytes : t.laidOut width.bytes ++ t.host.part 0 = bytesOf calls
  count_lt : t.host.partBufCount < width.bytes

theorem bytesOf_append (calls calls' : List (ℕ × List UInt8)) :
    bytesOf (calls ++ calls') = bytesOf calls ++ bytesOf calls' :=
  List.flatMap_append

theorem length_laidOut (w : ℕ) (t : Transfer) : (t.laidOut w).length = w * t.written.length :=
  length_flatMap_leBytes w t.written

theorem writeRun_append (calls : List (ℕ × List UInt8)) (call : ℕ × List UInt8) :
    writeRun width efficient blksz blocks host (calls ++ [call]) =
      dwMciWriteDataPio width efficient (writeRun width efficient blksz blocks host calls)
        call := by
  rw [writeRun, writeRun, List.foldl_append, List.foldl_cons, List.foldl_nil]

/-- The bytes in `part_buf` are those after the last whole word. -/
theorem Held.count_eq {calls : List (ℕ × List UInt8)} {t : Transfer}
    (h : Held width blksz blocks calls t) :
    t.host.partBufCount = (bytesOf calls).length % width.bytes := by
  rw [← h.bytes, List.length_append, length_laidOut, DwMci.length_part, Nat.mul_add_mod,
    Nat.mod_eq_of_lt h.count_lt]

/-- **Before the last call**, nothing is lost. -/
theorem writeRun_held {calls : List (ℕ × List UInt8)}
    (hlt : (bytesOf calls).length < blksz * blocks % 2 ^ 32) :
    Held width blksz blocks calls (writeRun width efficient blksz blocks host calls) := by
  have hbound : blksz * blocks % 2 ^ 32 < 2 ^ 32 := Nat.mod_lt _ (Nat.two_pow_pos 32)
  induction calls using List.reverseRecOn with
  | nil => exact ⟨rfl, rfl, width.bytes_pos⟩
  | append_singleton calls call ih =>
    rw [bytesOf_append, List.length_append] at hlt
    obtain ⟨hdata, hbytes, hcount⟩ := ih (by omega)
    have hsingle : bytesOf [call] = call.2 := List.append_nil _
    rw [hsingle] at hlt
    rw [writeRun_append, dwMciWriteDataPio, width.pushData_eq]
    obtain ⟨words, host', hwords, hcount', hpush⟩ :=
      @pushWords_spec width.bytes call.2 _ width.bytes_pos width.bytes_dvd efficient
        (writeRun width efficient blksz blocks host calls).data call.1 hcount
    have hxfered : ((bytesOf calls).length + call.2.length) % 2 ^ 32 =
        (bytesOf calls).length + call.2.length := Nat.mod_eq_of_lt (by omega)
    -- the transfer is not complete, so a rest stays in `part_buf`
    have hmore : ((writeRun width efficient blksz blocks host calls).data.bytesXfered +
        call.2.length) % 2 ^ 32 ≠
          (writeRun width efficient blksz blocks host calls).data.expected := by
      rw [hdata, hxfered]
      exact hlt.ne
    rw [if_neg fun h => hmore h.2.2, List.append_nil] at hpush
    rw [hpush]
    refine ⟨?_, ?_, hcount'⟩
    · dsimp only
      rw [hdata, hxfered, bytesOf_append, List.length_append, hsingle]
    · rw [Transfer.laidOut, List.flatMap_append, List.append_assoc, hwords, ← List.append_assoc,
        bytesOf_append, hsingle, ← hbytes, Transfer.laidOut]

/-- The words are the bytes, filled up in the last word. -/
def Complete (w : ℕ) (calls : List (ℕ × List UInt8)) (t : Transfer) : Prop :=
  ∃ pad, pad.length < w ∧ t.laidOut w = bytesOf calls ++ pad

/-- **The last call** completes the transfer unless it only adds to `part_buf`. -/
theorem complete_append_iff {before : List (ℕ × List UInt8)} {last : ℕ × List UInt8}
    (hlast : last.2 ≠ [])
    (htotal : (bytesOf (before ++ [last])).length = blksz * blocks % 2 ^ 32) :
    Complete width.bytes (before ++ [last])
        (writeRun width efficient blksz blocks host (before ++ [last])) ↔
      ¬((bytesOf before).length % width.bytes ≠ 0 ∧
        (bytesOf before).length % width.bytes + last.2.length < width.bytes) := by
  have hsingle : bytesOf [last] = last.2 := List.append_nil _
  have hpos : 0 < last.2.length := List.length_pos_iff.mpr hlast
  rw [bytesOf_append, List.length_append, hsingle] at htotal
  have hheld := @writeRun_held width efficient blksz blocks host before (by omega)
  rw [← hheld.count_eq, writeRun_append, dwMciWriteDataPio, width.pushData_eq]
  obtain ⟨words, host', hwords, hcount', hpush⟩ :=
    @pushWords_spec width.bytes last.2 _ width.bytes_pos width.bytes_dvd efficient
      (writeRun width efficient blksz blocks host before).data last.1 hheld.count_lt
  generalize writeRun width efficient blksz blocks host before = t at *
  have hreached : (t.data.bytesXfered + last.2.length) % 2 ^ 32 = t.data.expected := by
    rw [hheld.data, MmcData.expected, htotal, Nat.mod_mod]
  have hall : (t.written ++ words).flatMap (leBytes width.bytes) ++ host'.part 0 =
      bytesOf (before ++ [last]) := by
    rw [List.flatMap_append, List.append_assoc, hwords, ← List.append_assoc, bytesOf_append,
      hsingle, ← hheld.bytes, Transfer.laidOut]
  have hlen := congrArg List.length hwords
  rw [List.length_append, List.length_append, DwMci.length_part, DwMci.length_part,
    length_flatMap_leBytes] at hlen
  rw [hpush, Complete, Transfer.laidOut]
  dsimp only
  by_cases hstrands : Strands width.bytes t.host last.2
  · -- the bytes in `part_buf` are not written
    rw [if_neg fun h => h.2.1 hstrands, List.append_nil]
    refine iff_of_false ?_ (not_not_intro hstrands)
    rintro ⟨pad, -, hpad⟩
    have hlost := congrArg List.length (hall.trans (List.append_nil _).symm)
    have hle := congrArg List.length hpad
    obtain ⟨-, hlt⟩ := hstrands
    rw [List.length_append, DwMci.length_part, List.append_nil] at hlost
    rw [List.length_append] at hle
    have hwords0 : words.length = 0 := by
      by_contra hne
      have hmul := Nat.le_mul_of_pos_right width.bytes (Nat.pos_of_ne_zero hne)
      omega
    rw [hwords0, Nat.mul_zero] at hlen
    omega
  · refine iff_of_true ?_ hstrands
    by_cases hzero : host'.partBufCount = 0
    · rw [if_neg fun h => h.1 hzero, List.append_nil]
      rw [DwMci.part_eq_nil hzero, List.append_nil] at hall
      exact ⟨[], width.bytes_pos, by rw [hall, List.append_nil]⟩
    · -- the rest is written, with old bytes behind it
      rw [if_pos ⟨hzero, hstrands, hreached⟩, ← List.append_assoc, List.flatMap_append,
        List.flatMap_singleton, leBytes_partWord]
      have hload := Buffer.load_add host'.partBuf 0 host'.partBufCount
        (width.bytes - host'.partBufCount)
      rw [Nat.add_sub_cancel' hcount'.le] at hload
      refine ⟨host'.partBuf.load (0 + host'.partBufCount) (width.bytes - host'.partBufCount), ?_,
        ?_⟩
      · rw [Buffer.length_load]
        omega
      · rw [hload, ← hall, List.append_assoc, DwMci.part]

/-- **A transfer**, however it is cut into calls, is written completely if and only if its last call
does not only add to a word in `part_buf`. Before the last call nothing is lost in any case. -/
theorem dwMciPushData_complete_iff (width : DataWidth) (efficient : Bool) (blksz blocks : ℕ)
    (host : DwMci) (calls : List (ℕ × List UInt8)) (hcalls : ∀ call ∈ calls, call.2 ≠ [])
    (htotal : (bytesOf calls).length = blksz * blocks % 2 ^ 32) :
    ((∃ pad, pad.length < width.bytes ∧
        (writeRun width efficient blksz blocks host calls).laidOut width.bytes =
          bytesOf calls ++ pad) ∧
      ∀ before after, calls = before ++ after → after ≠ [] →
        (writeRun width efficient blksz blocks host before).laidOut width.bytes ++
          (writeRun width efficient blksz blocks host before).host.part 0 = bytesOf before) ↔
      ¬StrandsTail width.bytes calls := by
  have hheld : ∀ before after, calls = before ++ after → after ≠ [] →
      (writeRun width efficient blksz blocks host before).laidOut width.bytes ++
        (writeRun width efficient blksz blocks host before).host.part 0 = bytesOf before := by
    intro before after hsplit hafter
    refine (writeRun_held ?_).bytes
    obtain ⟨call, after, rfl⟩ := List.exists_cons_of_ne_nil hafter
    have hcall : 0 < call.2.length :=
      List.length_pos_iff.mpr (hcalls call (hsplit ▸ List.mem_append_right _ List.mem_cons_self))
    rw [← htotal, hsplit, bytesOf_append, bytesOf, bytesOf, List.flatMap_cons, List.length_append,
      List.length_append]
    omega
  rw [and_iff_left hheld]
  induction calls using List.reverseRecOn with
  | nil =>
    refine iff_of_true ⟨[], width.bytes_pos, rfl⟩ ?_
    rintro ⟨before, last, hnil, -⟩
    exact List.append_ne_nil_of_right_ne_nil before (List.cons_ne_nil last []) hnil.symm
  | append_singleton before last _ =>
    have hlast : last.2 ≠ [] :=
      hcalls last (List.mem_append_right _ (List.mem_singleton_self last))
    refine (complete_append_iff hlast htotal).trans (not_congr ?_)
    refine ⟨fun h => ⟨before, last, rfl, h⟩, ?_⟩
    rintro ⟨before', last', heq, h⟩
    obtain ⟨rfl, hsingle⟩ := List.append_inj' heq rfl
    obtain rfl := List.singleton_inj.mp hsingle
    exact h

end Run

/-- Six bytes of which one is in the last call, after five: the second word is not written. -/
theorem dwMciPushData_loses_tail :
    bytesOf [(0, [1, 2, 3, 4, 5]), (5, [6])] = [1, 2, 3, 4, 5, 6] ∧
      ¬∃ pad, pad.length < 4 ∧
        (writeRun .bits32 true 6 1 ⟨0, 0, fun _ => 0⟩
            [(0, [1, 2, 3, 4, 5]), (5, [6])]).laidOut 4 =
          bytesOf [(0, [1, 2, 3, 4, 5]), (5, [6])] ++ pad := by
  refine ⟨rfl, ?_⟩
  rintro ⟨pad, -, hpad⟩
  have hlaid : (writeRun .bits32 true 6 1 ⟨0, 0, fun _ => 0⟩
      [(0, [1, 2, 3, 4, 5]), (5, [6])]).laidOut 4 = [1, 2, 3, 4] := by decide
  have hlen := congrArg List.length hpad
  rw [hlaid, List.length_append] at hlen
  have hsix : (bytesOf [(0, [1, 2, 3, 4, 5]), (5, [6])]).length = 6 := rfl
  rw [hsix, List.length_cons, List.length_cons, List.length_cons, List.length_singleton] at hlen
  omega

/-- The same six bytes with three in the last call. -/
theorem dwMciPushData_complete_sample :
    (∃ pad, pad.length < 4 ∧
        (writeRun .bits32 true 6 1 ⟨0, 0, fun _ => 0⟩
            [(0, [1, 2, 3]), (3, [4, 5, 6])]).laidOut 4 = [1, 2, 3, 4, 5, 6] ++ pad) ∧
      ∀ before after, [(0, [1, 2, 3]), (3, [4, 5, 6])] = before ++ after → after ≠ [] →
        (writeRun .bits32 true 6 1 ⟨0, 0, fun _ => 0⟩ before).laidOut 4 ++
          (writeRun .bits32 true 6 1 ⟨0, 0, fun _ => 0⟩ before).host.part 0 = bytesOf before := by
  refine (dwMciPushData_complete_iff .bits32 true 6 1 ⟨0, 0, fun _ => 0⟩
    [(0, [1, 2, 3]), (3, [4, 5, 6])] (by decide) rfl).mpr ?_
  rintro ⟨before, last, heq, -, hlt⟩
  obtain ⟨rfl, hlast⟩ := @List.append_inj' _ [(0, [1, 2, 3])] [(3, [4, 5, 6])] before [last] heq rfl
  rw [← List.singleton_inj.mp hlast] at hlt
  exact absurd hlt (by decide)

end LinuxDriver.DwMmc
