import LinuxDriver.DwMmc.PartBuf

/-!
# Programmed reads of a dw_mmc host

`dw_mci_pull_data` first takes what is left of the last word and then reads words from the FIFO. The
words go to the buffer directly or, where its address is not aligned, through a buffer of 128 bytes.

## Main definitions

* `pullAligned`, `pullUnaligned`: the two loops over the whole words.
* `dwMciPullData16`, `dwMciPullData32`, `dwMciPullData64`, `dwMciPullData`.
* `pullRun`: the calls of a transfer, one after the other.
* `Pulled`: what a call does to the bytes that are still to come.

## Main results

* `pullUnaligned_eq`: both loops do the same.
* `dwMciPullData_pulled`, `pullRun_pulled`: a call and a run, which neither lose nor reorder a byte.
* `dwMciPullData_stream`: a run delivers a first part of the stream of the FIFO.
-/

namespace LinuxDriver.DwMmc

/-! ### The functions -/

/-- The loop that reads a number of words, or `none` where the FIFO has no more. -/
def pullItems (w : ℕ) : ℕ → List ℕ → Option (List UInt8 × List ℕ)
  | 0, fifo => some ([], fifo)
  | _ + 1, [] => none
  | items + 1, word :: fifo =>
    (pullItems w items fifo).map fun r => (leBytes w word ++ r.1, r.2)

/-- The loop for aligned buffers: the bytes stored, the value of `cnt` after it, and the FIFO. The
loop takes `w` off `cnt` for as long as it can. -/
def pullAligned (w cnt : ℕ) (fifo : List ℕ) : Option (List UInt8 × ℕ × List ℕ) :=
  (pullItems w (cnt / w) fifo).map fun r => (r.1, cnt % w, r.2)

/-- The loop for other buffers, with as many words in a round as `aligned_buf` has room for. -/
def pullUnaligned (w cnt : ℕ) (fifo : List ℕ) : Option (List UInt8 × ℕ × List ℕ) :=
  if _h : 0 < w ∧ w ∣ alignedBufSize ∧ w ≤ cnt then
    -- `cnt & -w` is `cnt` without the bytes of a last, partial word
    let len := min (cnt - cnt % w) alignedBufSize
    (pullItems w (len / w) fifo).bind fun r =>
      (pullUnaligned w (cnt - len) r.2).map fun r' => (r.1 ++ r'.1, r'.2)
  else some ([], cnt, fifo)
termination_by cnt
decreasing_by
  have hmod : cnt % w < w := Nat.mod_lt _ _h.1
  have hsize : 0 < alignedBufSize := Nat.succ_pos 127
  omega

/-- What `dw_mci_pull_data16`, `dw_mci_pull_data32` and `dw_mci_pull_data64` do, for words of `w`
bytes: the bytes stored, the host, and the FIFO. `efficient` is the configuration option
`HAVE_EFFICIENT_UNALIGNED_ACCESS`. -/
def pullWords (w : ℕ) (efficient : Bool) (addr cnt : ℕ) (host : DwMci) (fifo : List ℕ) :
    Option (List UInt8 × DwMci × List ℕ) :=
  let whole :=
    if efficient = false ∧ addr &&& (w - 1) ≠ 0 then pullUnaligned w cnt fifo
    else pullAligned w cnt fifo
  whole.bind fun
    | (bytes, 0, fifo) => some (bytes, host, fifo)
    | (_, _ + 1, []) => none
    | (bytes, cnt + 1, word :: fifo) =>
      let host := { host with partBuf := host.partBuf.store 0 (leBytes w word) }
      let final := dwMciPullFinalBytes w host (cnt + 1)
      some (bytes ++ final.1, final.2, fifo)

def dwMciPullData16 := pullWords 2

def dwMciPullData32 := pullWords 4

def dwMciPullData64 := pullWords 8

/-- `host->pull_data`, as `dw_mci_probe` sets it. -/
def DataWidth.pullData : DataWidth → Bool → ℕ → ℕ → DwMci → List ℕ →
    Option (List UInt8 × DwMci × List ℕ)
  | bits16 => dwMciPullData16
  | bits32 => dwMciPullData32
  | bits64 => dwMciPullData64

/-- `dw_mci_pull_data`, for a buffer at the address. -/
def dwMciPullData (width : DataWidth) (efficient : Bool) (addr cnt : ℕ) (host : DwMci)
    (fifo : List ℕ) : Option (List UInt8 × DwMci × List ℕ) :=
  let part := dwMciPullPartBytes host cnt
  let len := part.1.length
  if len = cnt then some (part.1, part.2, fifo)
  else
    (width.pullData efficient (addr + len) (cnt - len) part.2 fifo).map fun r =>
      (part.1 ++ r.1, r.2)

/-- The calls of a transfer, each with its address and its size: the bytes that each call stores,
the host, and what is left in the FIFO. -/
def pullRun (width : DataWidth) (efficient : Bool) :
    List (ℕ × ℕ) → DwMci → List ℕ → Option (List (List UInt8) × DwMci × List ℕ)
  | [], host, fifo => some ([], host, fifo)
  | (addr, cnt) :: calls, host, fifo =>
    (dwMciPullData width efficient addr cnt host fifo).bind fun r =>
      (pullRun width efficient calls r.2.1 r.2.2).map fun r' => (r.1 :: r'.1, r'.2)

/-! ### The two loops -/

theorem pullItems_of_le (w : ℕ) {items : ℕ} {fifo : List ℕ} (h : items ≤ fifo.length) :
    pullItems w items fifo = some ((fifo.take items).flatMap (leBytes w), fifo.drop items) := by
  induction items generalizing fifo with
  | zero => rfl
  | succ items ih =>
    cases fifo with
    | nil => exact absurd h (Nat.not_succ_le_zero items)
    | cons word fifo =>
      rw [pullItems, ih (Nat.le_of_succ_le_succ h)]
      rfl

/-- Words read in two rounds. -/
theorem pullItems_add (w a b : ℕ) (fifo : List ℕ) :
    pullItems w (a + b) fifo =
      (pullItems w a fifo).bind fun r => (pullItems w b r.2).map fun r' => (r.1 ++ r'.1, r'.2) := by
  induction a generalizing fifo with
  | zero => simp [pullItems]
  | succ a ih =>
    cases fifo with
    | nil => rw [Nat.add_right_comm, pullItems, pullItems, Option.bind_none]
    | cons word fifo =>
      rw [Nat.add_right_comm, pullItems, pullItems, ih, Option.map_bind, Option.bind_map]
      congr 1
      funext r
      simp [Function.comp_def]

/-- **The two loops.** A buffer that is not aligned gets the same bytes. -/
theorem pullUnaligned_eq {w : ℕ} (hw : 0 < w) (hdvd : w ∣ alignedBufSize) (cnt : ℕ)
    (fifo : List ℕ) : pullUnaligned w cnt fifo = pullAligned w cnt fifo := by
  induction cnt using Nat.strong_induction_on generalizing fifo with
  | _ cnt ih =>
    by_cases hle : w ≤ cnt
    · obtain ⟨items, hitems, hpos, hlecnt, hdiv⟩ := alignedLen_eq hw hdvd hle
      rw [pullUnaligned, dif_pos ⟨hw, hdvd, hle⟩]
      dsimp only
      rw [hitems, Nat.mul_div_cancel_left _ hw, pullAligned, hdiv, pullItems_add, Option.map_bind]
      congr 1
      funext r
      rw [ih _ (by omega), pullAligned, Function.comp_apply, Option.map_map, Option.map_map,
        Nat.sub_mul_mod hlecnt]
      rfl
    · have hlt : cnt < w := Nat.not_le.mp hle
      rw [pullUnaligned, dif_neg fun h => hle h.2.2, pullAligned, Nat.div_eq_of_lt hlt,
        Nat.mod_eq_of_lt hlt]
      rfl

/-! ### One call -/

/-- The bytes that are still to come: what waits in `part_buf`, and the words of the FIFO. -/
def coming (w : ℕ) (host : DwMci) (fifo : List ℕ) : List UInt8 :=
  host.part host.partBufStart ++ fifo.flatMap (leBytes w)

/-- What waits in `part_buf` is a last part of a word. -/
structure Kept (w : ℕ) (host : DwMci) : Prop where
  add_le : host.partBufStart + host.partBufCount ≤ w
  count_lt : host.partBufCount < w

/-- **What a call does.** It stores as many bytes as it should, which are the next ones to come. -/
structure Pulled (w cnt : ℕ) (host : DwMci) (fifo : List ℕ) (bytes : List UInt8) (host' : DwMci)
    (fifo' : List ℕ) : Prop where
  length : bytes.length = cnt
  stream : bytes ++ coming w host' fifo' = coming w host fifo
  suffix : fifo' <:+ fifo
  kept : Kept w host'

section Call

variable {w cnt : ℕ} {host : DwMci} {fifo : List ℕ}

theorem length_coming :
    (coming w host fifo).length = host.partBufCount + w * fifo.length := by
  rw [coming, List.length_append, DwMci.length_part, length_flatMap_leBytes]

/-- With nothing in `part_buf`, whole words and perhaps a part of another one are read. -/
theorem pullWords_pulled (hw : 0 < w) (hdvd : w ∣ alignedBufSize) (efficient : Bool) (addr : ℕ)
    (hkept : Kept w host) (hcount : host.partBufCount = 0) (hle : cnt ≤ w * fifo.length) :
    ∃ bytes host' fifo', pullWords w efficient addr cnt host fifo = some (bytes, host', fifo') ∧
      Pulled w cnt host fifo bytes host' fifo' := by
  have hitems : cnt / w ≤ fifo.length := by
    rw [← Nat.mul_div_cancel_left fifo.length hw]
    exact Nat.div_le_div_right hle
  have hcnt : w * (cnt / w) + cnt % w = cnt := Nat.div_add_mod cnt w
  have hcoming : ∀ fifo, coming w host fifo = fifo.flatMap (leBytes w) := by
    intro fifo
    rw [coming, DwMci.part_eq_nil hcount, List.nil_append]
  have htake : ((fifo.take (cnt / w)).flatMap (leBytes w)).length = w * (cnt / w) := by
    rw [length_flatMap_leBytes, List.length_take, min_eq_left hitems]
  rw [pullWords, pullUnaligned_eq hw hdvd, ite_self, pullAligned, pullItems_of_le w hitems]
  dsimp only [Option.map_some, Option.bind_some]
  cases hrem : cnt % w with
  | zero =>
    refine ⟨_, host, _, rfl, ?_, ?_, List.drop_suffix _ _, hkept⟩
    · omega
    · rw [hcoming, hcoming, ← List.flatMap_append, List.take_append_drop]
  | succ rem =>
    have hlt : rem + 1 < w := hrem ▸ Nat.mod_lt cnt hw
    cases hfifo : fifo.drop (cnt / w) with
    | nil =>
      -- the FIFO has a word for the rest
      have hmul := Nat.mul_le_mul_left w (List.drop_eq_nil_iff.mp hfifo)
      omega
    | cons word rest =>
      have hload : (host.partBuf.store 0 (leBytes w word)).load 0 w = leBytes w word := by
        have h := Buffer.load_store_self host.partBuf 0 (leBytes w word)
        rwa [length_leBytes] at h
      refine ⟨_, _, _, rfl, ?_, ?_, ?_, ?_, ?_⟩
      · rw [dwMciPullFinalBytes, List.length_append, htake, Buffer.length_load]
        omega
      · rw [hcoming, coming, DwMci.part, dwMciPullFinalBytes, List.append_assoc,
          ← List.append_assoc (Buffer.load _ 0 _)]
        dsimp only
        have hadd := Buffer.load_add (host.partBuf.store 0 (leBytes w word)) 0 (rem + 1)
          (w - (rem + 1))
        rw [Nat.add_sub_cancel' hlt.le, hload, Nat.zero_add] at hadd
        rw [← hadd, ← List.flatMap_cons, ← hfifo, ← List.flatMap_append, List.take_append_drop]
      · exact (List.suffix_cons word rest).trans (hfifo ▸ List.drop_suffix _ _)
      · rw [dwMciPullFinalBytes]
        dsimp only
        omega
      · rw [dwMciPullFinalBytes]
        dsimp only
        omega

theorem DataWidth.pullData_eq (width : DataWidth) : width.pullData = pullWords width.bytes := by
  cases width <;> rfl

/-- The bytes that wait come first. -/
theorem dwMciPullPartBytes_pulled (hkept : Kept w host) (cnt : ℕ) :
    Pulled w (min cnt host.partBufCount) host fifo (dwMciPullPartBytes host cnt).1
        (dwMciPullPartBytes host cnt).2 fifo ∧
      (dwMciPullPartBytes host cnt).2.partBufCount =
        host.partBufCount - min cnt host.partBufCount := by
  obtain ⟨hadd, hlt⟩ := hkept
  rw [dwMciPullPartBytes]
  by_cases hzero : min cnt host.partBufCount = 0
  · rw [if_pos hzero, hzero]
    exact ⟨⟨rfl, rfl, List.suffix_rfl, hadd, hlt⟩, rfl⟩
  · rw [if_neg hzero]
    refine ⟨⟨Buffer.length_load _ _ _, ?_, List.suffix_rfl, ?_, ?_⟩, rfl⟩
    · rw [coming, coming, ← List.append_assoc, DwMci.part, DwMci.part]
      dsimp only
      rw [← Buffer.load_add, Nat.add_sub_cancel' (min_le_right _ _)]
    · dsimp only
      omega
    · dsimp only
      omega

/-- **One call**, which takes what is left of the last word first. -/
theorem dwMciPullData_pulled (width : DataWidth) (efficient : Bool) (addr : ℕ)
    (hkept : Kept width.bytes host) (hle : cnt ≤ (coming width.bytes host fifo).length) :
    ∃ bytes host' fifo', dwMciPullData width efficient addr cnt host fifo =
      some (bytes, host', fifo') ∧ Pulled width.bytes cnt host fifo bytes host' fifo' := by
  obtain ⟨⟨hlen, hstream, -, hkept'⟩, hcount⟩ :=
    @dwMciPullPartBytes_pulled width.bytes host fifo hkept cnt
  rw [dwMciPullData, hlen]
  by_cases hall : min cnt host.partBufCount = cnt
  · rw [if_pos hall]
    exact ⟨_, _, _, rfl, hlen.trans hall, hstream, List.suffix_rfl, hkept'⟩
  · rw [if_neg hall, width.pullData_eq]
    rw [length_coming] at hle
    have hzero : (dwMciPullPartBytes host cnt).2.partBufCount = 0 := by omega
    obtain ⟨bytes, host', fifo', hpull, hlen', hstream', hsuffix, hkept''⟩ :=
      pullWords_pulled width.bytes_pos width.bytes_dvd efficient
        (addr + min cnt host.partBufCount) hkept' hzero
        (show cnt - min cnt host.partBufCount ≤ width.bytes * fifo.length by omega)
    rw [hpull, Option.map_some]
    refine ⟨_, _, _, rfl, ?_, ?_, hsuffix, hkept''⟩
    · rw [List.length_append, hlen, hlen']
      omega
    · rw [List.append_assoc, hstream', hstream]

end Call

/-! ### All calls -/

/-- **All calls** together do what one call of their sizes does. -/
theorem pullRun_pulled (width : DataWidth) (efficient : Bool) {calls : List (ℕ × ℕ)}
    {host : DwMci} {fifo : List ℕ} (hkept : Kept width.bytes host)
    (hle : (calls.map Prod.snd).sum ≤ (coming width.bytes host fifo).length) :
    ∃ out host' fifo', pullRun width efficient calls host fifo = some (out, host', fifo') ∧
      Pulled width.bytes (calls.map Prod.snd).sum host fifo out.flatten host' fifo' ∧
      out.map List.length = calls.map Prod.snd := by
  induction calls generalizing host fifo with
  | nil => exact ⟨[], host, fifo, rfl, ⟨rfl, rfl, List.suffix_rfl, hkept⟩, rfl⟩
  | cons call calls ih =>
    obtain ⟨addr, cnt⟩ := call
    rw [List.map_cons, List.sum_cons] at hle
    obtain ⟨bytes, host₁, fifo₁, hpull, hone⟩ :=
      dwMciPullData_pulled width efficient addr hkept
        (show cnt ≤ (coming width.bytes host fifo).length by omega)
    have hrest := congrArg List.length hone.stream
    rw [List.length_append, hone.length] at hrest
    obtain ⟨out, host', fifo', hrun, hpulled, hmap⟩ := @ih host₁ fifo₁ hone.kept (by omega)
    refine ⟨bytes :: out, host', fifo', ?_, ⟨?_, ?_, ?_, hpulled.kept⟩, ?_⟩
    · rw [pullRun, hpull, Option.bind_some, hrun, Option.map_some]
    · rw [List.flatten_cons, List.length_append, hone.length, hpulled.length, List.map_cons,
        List.sum_cons]
    · rw [List.flatten_cons, List.append_assoc, hpulled.stream, hone.stream]
    · exact hpulled.suffix.trans hone.suffix
    · rw [List.map_cons, List.map_cons, hone.length, hmap]

/-- **The stream of the FIFO.** However a transfer is cut into calls, it delivers a first part of
the stream and reads as many words as this part takes. What stays in `part_buf` lies in one word. -/
theorem dwMciPullData_stream (width : DataWidth) (efficient : Bool) (host : DwMci)
    (words : List ℕ) (calls : List (ℕ × ℕ))
    (hle : (calls.map Prod.snd).sum ≤ width.bytes * words.length) :
    ∃ out host' rest,
      pullRun width efficient calls (dwMciSubmitData host) words = some (out, host', rest) ∧
      out.flatten = (words.flatMap (leBytes width.bytes)).take (calls.map Prod.snd).sum ∧
      out.map List.length = calls.map Prod.snd ∧
      words.drop ((calls.map Prod.snd).sum ⌈/⌉ width.bytes) = rest ∧
      words.length = (calls.map Prod.snd).sum ⌈/⌉ width.bytes + rest.length ∧
      host'.partBufStart + host'.partBufCount ≤ width.bytes := by
  have hpos := width.bytes_pos
  have hkept : Kept width.bytes (dwMciSubmitData host) := ⟨Nat.zero_le _, hpos⟩
  have hcoming : coming width.bytes (dwMciSubmitData host) words =
      words.flatMap (leBytes width.bytes) := rfl
  obtain ⟨out, host', rest, hrun, hpulled, hmap⟩ :=
    pullRun_pulled width efficient hkept (by rwa [hcoming, length_flatMap_leBytes])
  have hstream := hpulled.stream
  rw [hcoming] at hstream
  have hlen := congrArg List.length hstream
  rw [List.length_append, hpulled.length, length_coming, length_flatMap_leBytes] at hlen
  have hrest : rest.length ≤ words.length := hpulled.suffix.length_le
  have hread : (calls.map Prod.snd).sum ⌈/⌉ width.bytes = words.length - rest.length := by
    have hmul : width.bytes * (words.length - rest.length) =
        (calls.map Prod.snd).sum + host'.partBufCount := by
      rw [Nat.mul_sub]
      omega
    have hlt := hpulled.kept.count_lt
    rw [Nat.ceilDiv_eq_add_pred_div]
    rw [Nat.div_eq_iff hpos]
    constructor
    · rw [Nat.mul_comm]
      omega
    · rw [Nat.mul_comm]
      omega
  refine ⟨out, host', rest, hrun, ?_, hmap, ?_, by omega, hpulled.kept.add_le⟩
  · rw [← hstream, List.take_left' hpulled.length]
  · rw [hread]
    exact (List.suffix_iff_eq_drop.mp hpulled.suffix).symm

/-- Five bytes of two words, in a call of three and one of two at an odd address. -/
theorem dwMciPullData_stream_sample :
    ∃ out host', pullRun .bits32 false [(0, 3), (3, 2)] (dwMciSubmitData ⟨0, 0, fun _ => 0⟩)
        [0x04030201, 0x08070605] = some (out, host', []) ∧
      out.flatten = [1, 2, 3, 4, 5] ∧ host'.partBufStart + host'.partBufCount ≤ 4 := by
  obtain ⟨out, host', rest, hrun, hout, -, hrest, -, hle⟩ :=
    dwMciPullData_stream .bits32 false ⟨0, 0, fun _ => 0⟩ [0x04030201, 0x08070605]
      [(0, 3), (3, 2)] (by decide)
  subst hrest
  exact ⟨out, host', hrun, hout, hle⟩

end LinuxDriver.DwMmc
