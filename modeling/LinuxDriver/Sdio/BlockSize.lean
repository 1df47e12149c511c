import LinuxDriver.Sdio.Cis
import LinuxDriver.Sdio.Transfer

/-!
# Block sizes that a card reports

The transfers divide by the current block size of a function, and in byte mode they go ahead by at
most the largest one. Both come from the CIS: a function whose CIS has no `CISTPL_FUNCE`, or one
that states zero, has a largest block size of zero, and `sdio_set_block_size(func, 0)` makes that
its current one. Transfers to it then divide by zero or never end.

## Main definitions

* `sdioSetBlockSize`, `sdioAlignSize`.
* `initFunc`, `setUp`: a function with the largest block size of its CIS, after some calls of
  `sdio_set_block_size`.
* `TransfersEnd`: no transfer divides by zero, and every one ends.

## Main results

* `transfersEnd_iff`: the states in which all transfers end.
* `setUp_transfersEnd_iff`: what the CIS and the last block size set have to do with it.
-/

namespace LinuxDriver.Sdio

/-! ### The functions -/

/-- A call of `sdio_set_block_size`, with the results of its two register writes. -/
structure SetCall where
  blksz : ℕ
  low : ℤ
  high : ℤ

/-- `sdio_set_block_size` -/
def sdioSetBlockSize (func : SdioFunc) (call : SetCall) : SdioFunc × ℤ :=
  if func.card.host.maxBlkSize < call.blksz then (func, -einval)
  else
    let blksz :=
      if call.blksz = 0 then min (min func.maxBlksize func.card.host.maxBlkSize) 512
      else call.blksz
    if call.low ≠ 0 then (func, call.low)
    else if call.high ≠ 0 then (func, call.high)
    else ({ func with curBlksize := blksz }, 0)

/-- `mmc_align_data_size` -/
def mmcAlignDataSize (sz : ℕ) : ℕ := wrapAdd 32 sz 3 / 4 * 4

/-- `sdio_align_size`, with `none` for a division by zero. -/
def sdioAlignSize (func : SdioFunc) (origSz : ℕ) : Option ℕ :=
  let sz := mmcAlignDataSize origSz
  if sz ≤ sdioMaxByteSize func then some sz
  else if func.card.multiBlock then
    if func.curBlksize = 0 then none
    else if sz % func.curBlksize = 0 then some sz
    else
      let blkSz :=
        wrapSub 32 (wrapAdd 32 sz func.curBlksize) 1 / func.curBlksize * func.curBlksize % 2 ^ 32
      let blkSz := mmcAlignDataSize blkSz
      if blkSz % func.curBlksize = 0 then some blkSz
      else
        let byteSz := mmcAlignDataSize (sz % func.curBlksize)
        if byteSz ≤ sdioMaxByteSize func then
          let blkSz := sz / func.curBlksize
          some (wrapAdd 32 (blkSz * func.curBlksize) byteSz)
        else some origSz
  else
    let chunkSz := mmcAlignDataSize (sdioMaxByteSize func)
    if chunkSz = sdioMaxByteSize func then
      if chunkSz = 0 then none
      else
        let byteSz := origSz % chunkSz
        let byteSz := if byteSz ≠ 0 then mmcAlignDataSize byteSz else byteSz
        some (wrapAdd 32 (origSz / chunkSz * chunkSz) byteSz)
    else some origSz

/-- No transfer to the function divides by zero, and every one ends, whatever the results of the
commands. -/
def TransfersEnd (func : SdioFunc) : Prop :=
  ∀ size < 2 ^ 32, sdioAlignSize func size ≠ none ∧
    ∀ write incrAddr res addr, ∃ fuel r cmds,
      sdioIoRwExtHelper func write incrAddr res fuel addr size = .ret r cmds

/-! ### When transfers end -/

section End

variable {func : SdioFunc} {write incrAddr : Bool} {res : ℕ → CmdResult}

/-- The loop in byte mode ends if it goes ahead. -/
theorem byteLoop_ends {n fuel : ℕ} (hmax : 0 < sdioMaxByteSize func ∨ n = 0) (hfuel : n < fuel)
    (addr buf : ℕ) (cmds : List Cmd53) :
    ∃ r cmds', byteLoop func write incrAddr res fuel n addr buf cmds = .ret r cmds' := by
  induction fuel generalizing n addr buf cmds with
  | zero => exact absurd hfuel (Nat.not_lt_zero n)
  | succ fuel ih =>
    rcases Nat.eq_zero_or_pos n with rfl | hn
    · exact ⟨0, cmds, rfl⟩
    · have hmax' := hmax.resolve_right hn.ne'
      rw [byteLoop, if_pos hn]
      dsimp only
      split_ifs
      · exact ⟨_, _, rfl⟩
      · exact ih (.inl hmax') (by omega) _ _ _

/-- The two loops end if there is a block size, and the loop in byte mode goes ahead or has nothing
to do. -/
theorem blockLoop_ends {n fuel : ℕ} (hblk : 0 < func.curBlksize)
    (hmax : 0 < sdioMaxByteSize func ∨ func.curBlksize = 1) (hfuel : n + 1 < fuel)
    (addr buf : ℕ) (cmds : List Cmd53) :
    ∃ r cmds', blockLoop func write incrAddr res fuel n addr buf cmds = .ret r cmds' := by
  induction fuel generalizing n addr buf cmds with
  | zero => exact absurd hfuel (Nat.not_lt_zero _)
  | succ fuel ih =>
    rw [blockLoop]
    split_ifs with hblock hzero
    · omega
    · obtain ⟨hone, -, -⟩ := commandBlocks_bounds hblk hblock
      have hpos : 0 < commandBlocks func n * func.curBlksize := Nat.mul_pos hone hblk
      dsimp only
      split_ifs
      · exact ⟨_, _, rfl⟩
      · exact ih (by omega) _ _ _
    · exact byteLoop_ends (hmax.imp id fun hone => by omega) (by omega) _ _ _

/-- In byte mode with nothing to go ahead by, the loop does not end. -/
theorem byteLoop_running (hmax : sdioMaxByteSize func = 0) (fuel buf : ℕ) (cmds : List Cmd53) :
    byteLoop func true false (fun _ => ⟨true, 0, 0, 0⟩) fuel 1 0 buf cmds = .running := by
  induction fuel generalizing buf cmds with
  | zero => rfl
  | succ fuel ih =>
    have hret : CmdResult.ret func.card.host ⟨true, 0, 0, 0⟩ = 0 := by
      simp [CmdResult.ret]
    have hdone : ∀ buf, (mmcIoRwExtended func.card.host true func.num 0 false buf 0 0
        ⟨true, 0, 0, 0⟩).1 = 0 := fun buf => by
      simp [mmcIoRwExtended, hret]
    rw [byteLoop, if_pos Nat.one_pos, hmax]
    dsimp only
    rw [Nat.min_zero, if_neg (not_not.mpr (hdone buf))]
    exact ih _ _

/-- What byte mode goes ahead by depends on the block size of the function. -/
theorem sdioMaxByteSize_pos_iff (func : SdioFunc) : 0 < sdioMaxByteSize func ↔
    if func.card.blkszForByteMode then 0 < func.curBlksize else 0 < func.maxBlksize := by
  have hhost := func.card.host.one_le_maxBlkSize
  unfold sdioMaxByteSize
  dsimp only
  split_ifs <;> omega

/-- The states in which all transfers end: with blocks, there is a block size and the bytes that are
left go ahead, if there are any, and otherwise the bytes go ahead. -/
def TransfersCanEnd (func : SdioFunc) : Prop :=
  if func.card.multiBlock then
    0 < func.curBlksize ∧ (0 < sdioMaxByteSize func ∨ func.curBlksize = 1)
  else 0 < sdioMaxByteSize func

instance (func : SdioFunc) : Decidable (TransfersCanEnd func) :=
  inferInstanceAs (Decidable (if func.card.multiBlock = true then
    0 < func.curBlksize ∧ (0 < sdioMaxByteSize func ∨ func.curBlksize = 1)
  else 0 < sdioMaxByteSize func))

theorem sdioAlignSize_ne_none (h : TransfersCanEnd func) (sz : ℕ) :
    sdioAlignSize func sz ≠ none := by
  unfold TransfersCanEnd at h
  unfold sdioAlignSize
  dsimp only
  split_ifs at h ⊢ <;> first | omega | exact Option.some_ne_none _

theorem sdioIoRwExtHelper_ends (h : TransfersCanEnd func) (addr size : ℕ) :
    ∃ fuel r cmds, sdioIoRwExtHelper func write incrAddr res fuel addr size = .ret r cmds := by
  refine ⟨size + 2, ?_⟩
  unfold TransfersCanEnd at h
  unfold sdioIoRwExtHelper
  split_ifs with hnum hblock
  · exact ⟨_, _, rfl⟩
  · rw [if_pos hblock.1] at h
    exact blockLoop_ends h.1 h.2 (by omega) _ _ _
  · refine byteLoop_ends ?_ (by omega) _ _ _
    by_cases hmulti : func.card.multiBlock = true
    · have hsize : ¬sdioMaxByteSize func < size := fun hlt => hblock ⟨hmulti, hlt⟩
      omega
    · rw [if_neg hmulti] at h
      exact .inl h

/-- **The states in which all transfers end.** -/
theorem transfersEnd_iff (hnum : func.num ≤ 7) : TransfersEnd func ↔ TransfersCanEnd func := by
  refine ⟨fun h => ?_, fun h size _ =>
    ⟨sdioAlignSize_ne_none h size, fun _ _ _ addr => sdioIoRwExtHelper_ends h addr size⟩⟩
  have hlt := sdioMaxByteSize_le func
  -- the sizes at which a transfer does not end: one byte, or one more than byte mode can take
  obtain ⟨-, hone⟩ := h 1 (by omega)
  obtain ⟨-, hblocks⟩ := h (sdioMaxByteSize func + 1) (by omega)
  obtain ⟨fuel, r, cmds, hone⟩ := hone true false (fun _ => ⟨true, 0, 0, 0⟩) 0
  obtain ⟨fuel', r', cmds', hblocks⟩ := hblocks true false (fun _ => ⟨true, 0, 0, 0⟩) 0
  rw [sdioIoRwExtHelper, if_neg (Nat.not_lt.mpr hnum)] at hone hblocks
  unfold TransfersCanEnd
  split_ifs with hmulti
  · rw [if_pos ⟨hmulti, Nat.lt_succ_self _⟩] at hblocks
    have hblk : 0 < func.curBlksize := by
      by_contra hzero
      cases fuel' with
      | zero => cases hblocks
      | succ fuel' =>
        rw [blockLoop, if_pos (by omega), if_pos (by omega)] at hblocks
        cases hblocks
    refine ⟨hblk, ?_⟩
    by_contra hstuck
    push Not at hstuck
    have hzero : sdioMaxByteSize func = 0 := by omega
    rw [if_pos ⟨hmulti, by omega⟩] at hone
    cases fuel with
    | zero => cases hone
    | succ fuel =>
      rw [blockLoop, if_neg (by omega), byteLoop_running hzero] at hone
      cases hone
  · by_contra hstuck
    rw [if_neg fun hblock => hmulti hblock.1, byteLoop_running (by omega)] at hone
    cases hone

end End

/-! ### Setting a function up -/

/-- The function that `sdio_init_func` makes of what its CIS says. -/
def initFunc (card : SdioCard) (func : FuncCis) : SdioFunc where
  card := card
  num := func.num.toNat
  maxBlksize := func.maxBlksize
  curBlksize := 0

/-- The function after some calls of `sdio_set_block_size`. -/
def setUp (func : SdioFunc) (calls : List SetCall) : SdioFunc :=
  calls.foldl (fun func call => (sdioSetBlockSize func call).1) func

/-- The call returns zero. -/
def SetCall.Accepted (host : SdioHost) (call : SetCall) : Prop :=
  call.blksz ≤ host.maxBlkSize ∧ call.low = 0 ∧ call.high = 0

instance (host : SdioHost) (call : SetCall) : Decidable (call.Accepted host) :=
  inferInstanceAs (Decidable (_ ∧ _ ∧ _))

/-- The block size that a call sets: the one that it asks for, or the default. -/
def SetCall.sets (func : SdioFunc) (call : SetCall) : ℕ :=
  if call.blksz = 0 then min (min func.maxBlksize func.card.host.maxBlkSize) 512 else call.blksz

theorem sdioSetBlockSize_fst (func : SdioFunc) (call : SetCall) :
    (sdioSetBlockSize func call).1 =
      if call.Accepted func.card.host then { func with curBlksize := call.sets func } else func := by
  by_cases haccepted : call.Accepted func.card.host
  · obtain ⟨hle, hlow, hhigh⟩ := id haccepted
    rw [if_pos haccepted, sdioSetBlockSize, if_neg (Nat.not_lt.mpr hle)]
    dsimp only
    rw [if_neg (not_not.mpr hlow), if_neg (not_not.mpr hhigh)]
    rfl
  · rw [if_neg haccepted]
    unfold sdioSetBlockSize
    dsimp only
    split_ifs with hbig hlow hhigh
    · rfl
    · rfl
    · rfl
    all_goals exact absurd ⟨Nat.not_lt.mp hbig, not_not.mp hlow, not_not.mp hhigh⟩ haccepted

theorem setUp_append_singleton (func : SdioFunc) (calls : List SetCall) (call : SetCall) :
    setUp func (calls ++ [call]) = (sdioSetBlockSize (setUp func calls) call).1 := by
  rw [setUp, List.foldl_append]
  rfl

/-- Setting block sizes changes nothing else. -/
theorem exists_setUp_eq (func : SdioFunc) (calls : List SetCall) :
    ∃ blksz, setUp func calls = { func with curBlksize := blksz } := by
  induction calls using List.reverseRecOn with
  | nil => exact ⟨func.curBlksize, rfl⟩
  | append_singleton calls call ih =>
    obtain ⟨blksz, hset⟩ := ih
    rw [setUp_append_singleton, sdioSetBlockSize_fst, hset]
    split_ifs
    · exact ⟨_, rfl⟩
    · exact ⟨blksz, rfl⟩

/-- **A function that is set up** has the block size of the last call that was accepted. -/
theorem setUp_eq {func : SdioFunc} {calls : List SetCall} {call : SetCall}
    (hlast : (calls.filter fun call => call.Accepted func.card.host).getLast? = some call) :
    setUp func calls = { func with curBlksize := call.sets func } := by
  induction calls using List.reverseRecOn with
  | nil => cases hlast
  | append_singleton calls last ih =>
    obtain ⟨blksz, hset⟩ := exists_setUp_eq func calls
    rw [setUp_append_singleton, sdioSetBlockSize_fst]
    by_cases haccepted : last.Accepted func.card.host
    · rw [List.filter_append, List.filter_singleton, decide_eq_true haccepted, cond_true,
        List.getLast?_concat] at hlast
      obtain rfl := Option.some.inj hlast
      rw [hset, if_pos haccepted]
      rfl
    · rw [List.filter_append, List.filter_singleton, decide_eq_false haccepted, cond_false,
        List.append_nil] at hlast
      have hcard : (setUp func calls).card = func.card := by rw [hset]
      rw [hcard, if_neg haccepted, ih hlast]

/-- **Transfers end unless the CIS states no block size.** Once the block size of a function was
set, all its transfers end if and only if its CIS states a largest block size that is not zero, or
the block size was not left to the default and byte mode goes by it or is not needed. -/
theorem setUp_transfersEnd_iff {card : SdioCard} {func : FuncCis} {calls : List SetCall}
    {call : SetCall} (hnum : func.num.toNat ≤ 7)
    (hlast : (calls.filter fun call => call.Accepted card.host).getLast? = some call) :
    TransfersEnd (setUp (initFunc card func) calls) ↔
      0 < func.maxBlksize ∨
        0 < call.blksz ∧ (card.blkszForByteMode ∨ card.multiBlock ∧ call.blksz = 1) := by
  have hhost := card.host.one_le_maxBlkSize
  have hset : setUp (initFunc card func) calls =
      ⟨card, func.num.toNat, func.maxBlksize, call.sets (initFunc card func)⟩ := setUp_eq hlast
  rw [hset, transfersEnd_iff hnum]
  unfold TransfersCanEnd
  rw [sdioMaxByteSize_pos_iff]
  dsimp only
  have hdefault : call.blksz = 0 → (0 < call.sets (initFunc card func) ↔ 0 < func.maxBlksize) := by
    intro hzero
    rw [SetCall.sets, if_pos hzero]
    change 0 < min (min func.maxBlksize card.host.maxBlkSize) 512 ↔ _
    omega
  have hgiven : 0 < call.blksz → call.sets (initFunc card func) = call.blksz :=
    fun hpos => if_neg hpos.ne'
  rcases Nat.eq_zero_or_pos call.blksz with hzero | hpos
  · specialize hdefault hzero
    by_cases hmulti : card.multiBlock = true <;> by_cases hbyte : card.blkszForByteMode = true <;>
      simp [hmulti, hbyte, hzero] <;> omega
  · rw [hgiven hpos]
    by_cases hmulti : card.multiBlock = true <;> by_cases hbyte : card.blkszForByteMode = true <;>
      simp [hmulti, hbyte, hpos]

/-- The first function of a card, before its CIS is read. -/
def FuncCis.clear : FuncCis := ⟨1, 0, none, 0, 0, 0, 0, []⟩

/-- The block size of a function without one in its CIS is set to four bytes. -/
theorem setUp_transfersEnd_iff_sample :
    TransfersEnd (setUp (initFunc ⟨pageHost, true, true, false⟩ .clear)
        [⟨0, 0, 0⟩, ⟨4, 0, 0⟩]) ↔
      0 < FuncCis.clear.maxBlksize ∨ 0 < 4 ∧ (true = true ∨ true = true ∧ 4 = 1) :=
  @setUp_transfersEnd_iff ⟨pageHost, true, true, false⟩ .clear [⟨0, 0, 0⟩, ⟨4, 0, 0⟩] ⟨4, 0, 0⟩
    (by decide) rfl

/-- A card whose CIS ends at once. -/
def endCis : CisCard := fun addr => .ok (if addr = 0 then 0xff else 0x00)

/-- What is known of a card and of its first function before the CIS is read. -/
def CisState.clear : CisState := ⟨⟨0, 0, none, 0, 0, 0, 0, []⟩, some .clear⟩

/-- Reading this CIS is a success, and leaves the function without a block size. -/
theorem sdioReadFuncCis_endCis :
    sdioReadFuncCis endCis ⟨fun _ => true, fun _ => true⟩ .clear = some (.clear, 0) := by
  have hptr : readCisPtr endCis (CisState.fn .clear) = .ok 0 := by decide
  have hloop : cisLoop endCis ⟨fun _ => true, fun _ => true⟩ 0 .clear [] =
      some ⟨.clear, [], 0, false⟩ := by
    rw [cisLoop]
    split
    · next e he => cases he
    · next code hcode =>
      obtain rfl : 0xff = code := Except.ok.inj hcode
      rfl
  rw [sdioReadFuncCis, sdioReadCis, hptr]
  dsimp only
  rw [if_neg (by decide), hloop]
  rfl

/-- The block size of the function of this card is set to the default, and a transfer to it divides
by zero. -/
theorem setUp_endCis_not_transfersEnd :
    sdioReadFuncCis endCis ⟨fun _ => true, fun _ => true⟩ .clear = some (.clear, 0) ∧
      CisState.clear.func = some .clear ∧
      (sdioSetBlockSize (initFunc ⟨pageHost, true, false, false⟩ .clear) ⟨0, 0, 0⟩).2 = 0 ∧
      ¬TransfersEnd (setUp (initFunc ⟨pageHost, true, false, false⟩ .clear) [⟨0, 0, 0⟩]) := by
  refine ⟨sdioReadFuncCis_endCis, rfl, rfl, ?_⟩
  rw [transfersEnd_iff (by decide)]
  decide

end LinuxDriver.Sdio
