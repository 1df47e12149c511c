import LinuxDriver.LittleEndian

/-!
# Programmed transfers of an SDHCI host

`sdhci_write_block_pio` packs the bytes of a block into 32-bit words for the buffer port of the
host, and `sdhci_read_block_pio` unpacks the words that it reads there. Both go through the segments
of a scatter list, and a word may begin in one segment and end in another one.

## Main definitions

* `PioWrite`, `sdhciWriteBlockPio`: the state of the packing, and the words written.
* `PioRead`, `sdhciReadBlockPio`: the state of the unpacking, and the bytes stored.
* `Packed`, `Flushed`, `ReadAt`: what the states say about the bytes so far.

## Main results

* `sdhciWriteBlockPio_flushed`: the words are the block, filled up with zeros.
* `sdhciReadBlockPio_eq`: the bytes are a first part of the stream of words.
* `sdhciPio_roundTrip`: reading what was written gives back the block, however it is cut.
-/

namespace LinuxDriver.Sdhci

/-! ### Writing -/

/-- The variables of `sdhci_write_block_pio`, and the words that it has written. -/
structure PioWrite where
  chunk : ℕ
  scratch : ℕ
  words : List ℕ

/-- The inner loop over the bytes of a segment, with the `blksize` left after it. -/
def writeBytes (blksize : ℕ) : List UInt8 → PioWrite → PioWrite
  | [], s => s
  | b :: buf, s =>
    let scratch := s.scratch ||| b.toNat <<< (s.chunk * 8) % 2 ^ 32
    let chunk := s.chunk + 1
    if chunk = 4 ∨ (buf = [] ∧ blksize = 0) then
      writeBytes blksize buf ⟨0, 0, s.words ++ [scratch]⟩
    else writeBytes blksize buf ⟨chunk, scratch, s.words⟩

/-- The outer loop over the segments, or `none` if they end before the block does. -/
def writeSegments : ℕ → List (List UInt8) → PioWrite → Option PioWrite
  | blksize, [], s => if blksize = 0 then some s else none
  | blksize, seg :: segs, s =>
    if blksize = 0 then some s
    else
      let len := min seg.length blksize
      writeSegments (blksize - len) segs (writeBytes (blksize - len) (seg.take len) s)

/-- `sdhci_write_block_pio`: the words that it writes. -/
def sdhciWriteBlockPio (blksize : ℕ) (segs : List (List UInt8)) : Option (List ℕ) :=
  (writeSegments blksize segs ⟨0, 0, []⟩).map PioWrite.words

/-! ### Reading -/

/-- The variables of `sdhci_read_block_pio`, and the number of words that it has read. -/
structure PioRead where
  chunk : ℕ
  scratch : ℕ
  reads : ℕ

/-- The inner loop that stores `len` bytes, with the words that the host has. -/
def readBytes (fifo : ℕ → ℕ) : ℕ → PioRead → List UInt8 × PioRead
  | 0, s => ([], s)
  | len + 1, s =>
    let s := if s.chunk = 0 then ⟨4, fifo s.reads, s.reads + 1⟩ else s
    let rest := readBytes fifo len ⟨s.chunk - 1, s.scratch >>> 8, s.reads⟩
    (UInt8.ofNat (s.scratch &&& 0xFF) :: rest.1, rest.2)

/-- The outer loop over the sizes of the segments: the bytes stored in each of them, and the number
of words read. -/
def readSegments (fifo : ℕ → ℕ) : ℕ → List ℕ → PioRead → Option (List (List UInt8) × ℕ)
  | blksize, [], s => if blksize = 0 then some ([], s.reads) else none
  | blksize, size :: sizes, s =>
    if blksize = 0 then some ([], s.reads)
    else
      let len := min size blksize
      let done := readBytes fifo len s
      (readSegments fifo (blksize - len) sizes done.2).map fun r => (done.1 :: r.1, r.2)

/-- `sdhci_read_block_pio`, with some old value in `scratch`. -/
def sdhciReadBlockPio (fifo : ℕ → ℕ) (scratch blksize : ℕ) (sizes : List ℕ) :
    Option (List (List UInt8) × ℕ) :=
  readSegments fifo blksize sizes ⟨0, scratch, 0⟩

/-! ### What is written -/

/-- The bytes are in the words and, fewer than four of them, in `scratch`. -/
def Packed (done : List UInt8) (s : PioWrite) : Prop :=
  ∃ pending, s.words.flatMap (leBytes 4) ++ pending = done ∧ s.chunk = pending.length ∧
    s.scratch = leWord pending ∧ pending.length < 4

/-- The bytes are in the words, filled up with fewer than four zeros. -/
def Flushed (done : List UInt8) (s : PioWrite) : Prop :=
  ∃ pad < 4, s.words.flatMap (leBytes 4) = done ++ List.replicate pad 0

theorem Packed.start : Packed [] ⟨0, 0, []⟩ := ⟨[], rfl, rfl, rfl, Nat.zero_lt_succ 3⟩

section Write

variable {done : List UInt8} {s : PioWrite}

/-- The word with one more byte. -/
theorem scratch_eq {pending : List UInt8} (hlen : pending.length < 4) (b : UInt8) :
    leWord pending ||| b.toNat <<< (pending.length * 8) % 2 ^ 32 = leWord (pending ++ [b]) := by
  have hb : b.toNat < 2 ^ 8 := b.toNat_lt
  have hpow : 2 ^ (pending.length * 8) ≤ 2 ^ 24 := Nat.pow_le_pow_right (by norm_num) (by omega)
  have hlt : b.toNat <<< (pending.length * 8) < 2 ^ 32 := by
    have hmul := Nat.mul_lt_mul_of_lt_of_le hb hpow (by norm_num)
    rw [Nat.shiftLeft_eq]
    omega
  rw [Nat.mod_eq_of_lt hlt, leWord_append_singleton, Nat.mul_comm]

/-- A word that is written, whole or filled up. -/
theorem flatMap_write (words : List ℕ) {pending : List UInt8} (hlen : pending.length ≤ 4) :
    (words ++ [leWord pending]).flatMap (leBytes 4) =
      words.flatMap (leBytes 4) ++ pending ++ List.replicate (4 - pending.length) 0 := by
  rw [List.flatMap_append, List.flatMap_singleton, leBytes_leWord hlen, List.append_assoc]

/-- **The inner loop.** After the last byte of the block nothing is left in `scratch`. -/
theorem writeBytes_spec (blksize : ℕ) (buf : List UInt8) (h : Packed done s) :
    if buf ≠ [] ∧ blksize = 0 then Flushed (done ++ buf) (writeBytes blksize buf s)
    else Packed (done ++ buf) (writeBytes blksize buf s) := by
  induction buf generalizing done s with
  | nil =>
    rw [if_neg fun h => h.1 rfl, List.append_nil]
    exact h
  | cons b buf ih =>
    obtain ⟨pending, hdone, hchunk, hscratch, hlen⟩ := h
    have hnext : done ++ b :: buf = done ++ [b] ++ buf := by
      rw [List.append_assoc, List.singleton_append]
    have hbytes : s.words.flatMap (leBytes 4) ++ (pending ++ [b]) = done ++ [b] := by
      rw [← List.append_assoc, hdone]
    have hlen' : (pending ++ [b]).length = pending.length + 1 := List.length_append
    have hwrite := flatMap_write s.words (show (pending ++ [b]).length ≤ 4 by omega)
    rw [List.append_assoc (s.words.flatMap _), ← List.append_assoc, hbytes] at hwrite
    rw [writeBytes, hchunk, hscratch, scratch_eq hlen, hnext]
    by_cases hlast : buf = [] ∧ blksize = 0
    · obtain ⟨rfl, rfl⟩ := hlast
      rw [if_pos ⟨List.cons_ne_nil b [], rfl⟩, if_pos (.inr ⟨rfl, rfl⟩), writeBytes,
        List.append_nil]
      exact ⟨4 - (pending ++ [b]).length, by omega, hwrite⟩
    · have hmore : (b :: buf ≠ [] ∧ blksize = 0) ↔ (buf ≠ [] ∧ blksize = 0) := by
        refine ⟨fun h => ⟨fun hnil => hlast ⟨hnil, h.2⟩, h.2⟩, fun h => ?_⟩
        exact ⟨List.cons_ne_nil b buf, h.2⟩
      simp only [hmore]
      by_cases hfull : pending.length + 1 = 4
      · have hflush : pending.length + 1 = 4 ∨ buf = [] ∧ blksize = 0 := .inl hfull
        rw [hlen', hfull, Nat.sub_self, List.replicate_zero, List.append_nil] at hwrite
        rw [if_pos hflush]
        exact ih ⟨[], by rw [List.append_nil, hwrite], rfl, rfl, Nat.zero_lt_succ 3⟩
      · have hkeep : ¬(pending.length + 1 = 4 ∨ buf = [] ∧ blksize = 0) := not_or.mpr ⟨hfull, hlast⟩
        rw [if_neg hkeep]
        exact ih ⟨pending ++ [b], hbytes, hlen'.symm, rfl, by omega⟩

/-- **The outer loop.** It ends, and everything is written. -/
theorem writeSegments_flushed {segs : List (List UInt8)} (hsegs : ∀ seg ∈ segs, seg ≠ [])
    (h : Packed done s) (hnil : segs = [] → Flushed done s) :
    ∃ s', writeSegments segs.flatten.length segs s = some s' ∧
      Flushed (done ++ segs.flatten) s' := by
  induction segs generalizing done s with
  | nil =>
    refine ⟨s, rfl, ?_⟩
    rw [List.flatten_nil, List.append_nil]
    exact hnil rfl
  | cons seg segs ih =>
    obtain ⟨hseg, hsegs⟩ := List.forall_mem_cons.mp hsegs
    have hlen : (seg :: segs).flatten.length = seg.length + segs.flatten.length := by
      rw [List.flatten_cons, List.length_append]
    have hpos : 0 < seg.length := List.length_pos_iff.mpr hseg
    have hmin : min seg.length (seg :: segs).flatten.length = seg.length := by omega
    have hrest : (seg :: segs).flatten.length - seg.length = segs.flatten.length := by omega
    have hbytes := writeBytes_spec segs.flatten.length seg h
    rw [writeSegments, if_neg (by omega)]
    dsimp only
    rw [hmin, hrest, List.take_length, List.flatten_cons, ← List.append_assoc]
    by_cases hlast : segs.flatten.length = 0
    · -- a list of segments with bytes that has none is empty
      obtain rfl : segs = [] := by
        cases segs with
        | nil => rfl
        | cons seg' segs =>
          obtain ⟨hseg', -⟩ := List.forall_mem_cons.mp hsegs
          rw [List.flatten_cons, List.length_append, Nat.add_eq_zero_iff, List.length_eq_zero_iff]
            at hlast
          exact absurd hlast.1 hseg'
      rw [if_pos ⟨hseg, rfl⟩] at hbytes
      refine ⟨_, rfl, ?_⟩
      rw [List.flatten_nil, List.append_nil]
      exact hbytes
    · rw [if_neg fun h => hlast h.2] at hbytes
      refine ih hsegs hbytes ?_
      rintro rfl
      exact absurd rfl hlast

/-- **What is written.** As many words as the block takes, which are the block with fewer than four
zeros behind it. -/
theorem sdhciWriteBlockPio_flushed {segs : List (List UInt8)} (hsegs : ∀ seg ∈ segs, seg ≠ []) :
    ∃ words, sdhciWriteBlockPio segs.flatten.length segs = some words ∧
      words.length = (segs.flatten.length + 3) / 4 ∧
      words.flatMap (leBytes 4) =
        segs.flatten ++ List.replicate (4 * words.length - segs.flatten.length) 0 := by
  obtain ⟨s, hs, pad, hpad, hbytes⟩ :=
    writeSegments_flushed hsegs .start fun _ => ⟨0, Nat.zero_lt_succ 3, rfl⟩
  have hlen := congrArg List.length hbytes
  rw [length_flatMap_leBytes, List.nil_append, List.length_append, List.length_replicate] at hlen
  refine ⟨s.words, by rw [sdhciWriteBlockPio, hs, Option.map_some], by omega, ?_⟩
  have hpad' : 4 * s.words.length - segs.flatten.length = pad := by omega
  rw [hbytes, List.nil_append, hpad']

end Write

/-! ### What is read -/

section Read

variable (fifo : ℕ → ℕ)

/-- After `k` bytes, the other bytes of the last word read are in `scratch`. -/
structure ReadAt (k : ℕ) (s : PioRead) : Prop where
  reads : k + s.chunk = 4 * s.reads
  chunk_lt : s.chunk < 4
  scratch : s.chunk ≠ 0 → s.scratch = fifo (s.reads - 1) >>> (8 * (4 - s.chunk))

theorem ReadAt.start (scratch : ℕ) : ReadAt fifo 0 ⟨0, scratch, 0⟩ :=
  ⟨rfl, Nat.zero_lt_succ 3, fun h => absurd rfl h⟩

theorem ofNat_and_255 (n : ℕ) : UInt8.ofNat (n &&& 0xFF) = UInt8.ofNat n := by
  refine UInt8.toNat_inj.mp ?_
  have hand : n &&& 0xFF = n % 2 ^ 8 := Nat.and_two_pow_sub_one_eq_mod n 8
  rw [UInt8.toNat_ofNat', UInt8.toNat_ofNat', hand]
  omega

variable {fifo}

/-- **One byte.** It is the next one of the stream, from `scratch` or from a new word. -/
theorem ReadAt.step {k : ℕ} {s : PioRead} (h : ReadAt fifo k s) :
    let s' : PioRead := if s.chunk = 0 then ⟨4, fifo s.reads, s.reads + 1⟩ else s
    UInt8.ofNat (s'.scratch &&& 0xFF) = wordByte 4 fifo k ∧
      ReadAt fifo (k + 1) ⟨s'.chunk - 1, s'.scratch >>> 8, s'.reads⟩ := by
  obtain ⟨hreads, hlt, hscratch⟩ := h
  intro s'
  by_cases hzero : s.chunk = 0
  · have hs' : s' = ⟨4, fifo s.reads, s.reads + 1⟩ := if_pos hzero
    have hquot : k / 4 = s.reads := by omega
    have hmod : k % 4 = 0 := by omega
    rw [hs', ofNat_and_255, wordByte, hquot, hmod]
    refine ⟨rfl, ⟨by dsimp only; omega, by norm_num, fun _ => rfl⟩⟩
  · have hs' : s' = s := if_neg hzero
    have hquot : k / 4 = s.reads - 1 := by omega
    have hmod : k % 4 = 4 - s.chunk := by omega
    rw [hs', ofNat_and_255, wordByte, hquot, hmod, hscratch hzero]
    refine ⟨rfl, ⟨by dsimp only; omega, by dsimp only; omega, fun hne => ?_⟩⟩
    have hshift : 8 * (4 - (s.chunk - 1)) = 8 * (4 - s.chunk) + 8 := by
      have hne' : s.chunk - 1 ≠ 0 := hne
      omega
    change fifo (s.reads - 1) >>> (8 * (4 - s.chunk)) >>> 8 = _
    rw [← Nat.shiftRight_add, ← hshift]

/-- **The inner loop.** It stores the next bytes of the stream. -/
theorem readBytes_eq {k : ℕ} {s : PioRead} (h : ReadAt fifo k s) (len : ℕ) :
    (readBytes fifo len s).1 = (List.range len).map (fun i => wordByte 4 fifo (k + i)) ∧
      ReadAt fifo (k + len) (readBytes fifo len s).2 := by
  induction len generalizing k s with
  | zero => exact ⟨rfl, h⟩
  | succ len ih =>
    obtain ⟨hbyte, hnext⟩ := h.step
    obtain ⟨hrest, hend⟩ := ih hnext
    rw [Nat.add_right_comm, Nat.add_assoc] at hend
    refine ⟨?_, hend⟩
    rw [readBytes]
    dsimp only at hbyte hrest ⊢
    rw [hbyte, hrest, List.range_succ_eq_map, List.map_cons, List.map_map, Nat.add_zero]
    congr 1
    refine List.map_congr_left fun i _ => ?_
    rw [Function.comp_apply, Nat.succ_eq_add_one, Nat.add_right_comm, Nat.add_assoc]

/-- **The outer loop.** It ends with all segments filled, in the order of the stream. -/
theorem readSegments_eq {sizes : List ℕ} (hsizes : ∀ size ∈ sizes, 0 < size) {k : ℕ} {s : PioRead}
    (h : ReadAt fifo k s) :
    ∃ out, readSegments fifo sizes.sum sizes s = some (out, (k + sizes.sum + 3) / 4) ∧
      out.flatten = (List.range sizes.sum).map (fun i => wordByte 4 fifo (k + i)) ∧
      out.map List.length = sizes := by
  induction sizes generalizing k s with
  | nil =>
    obtain ⟨hreads, hlt, -⟩ := h
    have hcount : s.reads = (k + 3) / 4 := by omega
    refine ⟨[], ?_, rfl, rfl⟩
    simp [readSegments, hcount]
  | cons size sizes ih =>
    obtain ⟨hsize, hsizes⟩ := List.forall_mem_cons.mp hsizes
    obtain ⟨hbytes, hnext⟩ := readBytes_eq h size
    obtain ⟨out, hout, hflat, hlen⟩ := ih hsizes hnext
    have hmin : min size (size + sizes.sum) = size := by omega
    rw [List.sum_cons, readSegments, if_neg (by omega)]
    dsimp only
    rw [hmin, Nat.add_sub_cancel_left, hout, Option.map_some]
    refine ⟨_, by rw [Nat.add_assoc k], ?_, ?_⟩
    · rw [List.flatten_cons, hbytes, hflat, List.range_add, List.map_append, List.map_map]
      congr 1
      refine List.map_congr_left fun i _ => ?_
      rw [Function.comp_apply, Nat.add_assoc]
    · rw [List.map_cons, hlen, hbytes, List.length_map, List.length_range]

/-- **What is read.** A block of any cut is a first part of the stream of words, of which as many
are read as it takes. -/
theorem sdhciReadBlockPio_eq (fifo : ℕ → ℕ) (scratch : ℕ) {sizes : List ℕ}
    (hsizes : ∀ size ∈ sizes, 0 < size) :
    ∃ out, sdhciReadBlockPio fifo scratch sizes.sum sizes = some (out, (sizes.sum + 3) / 4) ∧
      out.flatten = (List.range sizes.sum).map (wordByte 4 fifo) ∧
      out.map List.length = sizes := by
  obtain ⟨out, hout, hflat, hlen⟩ := readSegments_eq hsizes (ReadAt.start fifo scratch)
  simp only [Nat.zero_add] at hout hflat
  exact ⟨out, hout, hflat, hlen⟩

end Read

/-- **The round trip.** A block is written in as many words as it takes, with zeros behind it. From
these words, segments of any other sizes are filled with the block, and as many words are read. -/
theorem sdhciPio_roundTrip (segs : List (List UInt8)) (hsegs : ∀ seg ∈ segs, seg ≠ []) :
    ∃ words, sdhciWriteBlockPio segs.flatten.length segs = some words ∧
      words.length = (segs.flatten.length + 3) / 4 ∧
      words.flatMap (leBytes 4) =
        segs.flatten ++ List.replicate (4 * words.length - segs.flatten.length) 0 ∧
      ∀ (sizes : List ℕ) (scratch : ℕ) (fifo : ℕ → ℕ), (∀ size ∈ sizes, 0 < size) →
        sizes.sum = segs.flatten.length →
        (∀ i, (hi : i < words.length) → words[i] = fifo i) →
        ∃ out, sdhciReadBlockPio fifo scratch segs.flatten.length sizes =
            some (out, words.length) ∧
          out.flatten = segs.flatten ∧ out.map List.length = sizes := by
  obtain ⟨words, hwords, hlen, hbytes⟩ := sdhciWriteBlockPio_flushed hsegs
  refine ⟨words, hwords, hlen, hbytes, fun sizes scratch fifo hsizes hsum hfifo => ?_⟩
  obtain ⟨out, hout, hflat, hmap⟩ := sdhciReadBlockPio_eq fifo scratch hsizes
  have hstream := flatMap_leBytes (Nat.zero_lt_succ 3) hfifo
  rw [hsum, ← hlen] at hout
  rw [hsum] at hflat
  refine ⟨out, hout, ?_, hmap⟩
  have hle : segs.flatten.length ≤ 4 * words.length := by omega
  have htake := congrArg (List.take segs.flatten.length) (hbytes.symm.trans hstream)
  rw [List.take_left, ← List.map_take, List.take_range, min_eq_left hle] at htake
  rw [hflat, ← htake]

/-- Five bytes in segments of two and three, read back into segments of four and one. -/
theorem sdhciPio_roundTrip_sample :
    ∃ words out, sdhciWriteBlockPio 5 [[1, 2], [3, 4, 5]] = some words ∧ words.length = 2 ∧
      sdhciReadBlockPio (fun i => words.getD i 0) 0 5 [4, 1] = some (out, 2) ∧
      out.flatten = [1, 2, 3, 4, 5] ∧ out.map List.length = [4, 1] := by
  obtain ⟨words, hwords, hlen, -, hread⟩ :=
    sdhciPio_roundTrip [[1, 2], [3, 4, 5]] (by decide)
  obtain ⟨out, hout, hflat, hmap⟩ := hread [4, 1] 0 (fun i => words.getD i 0) (by decide) rfl
    fun i hi => (List.getD_eq_getElem words 0 hi).symm
  rw [hlen] at hout
  exact ⟨words, out, hwords, hlen, hout, hflat, hmap⟩

end LinuxDriver.Sdhci
