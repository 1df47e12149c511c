import LinuxDriver.Sdio.BlockSize

/-!
# Padded sizes

`sdio_align_size` pads the size of a transfer to a multiple of four bytes, and further to whole
blocks, so that it takes fewer commands. How many commands a size takes is up to
`sdio_io_rw_ext_helper`, which splits it by its own rules. With block sizes that are no multiple of
four the padding may cost a command.

## Main definitions

* `paddedSize`: the padded size, with rounding that does not wrap.
* `commandsFor`: the number of commands for a size.
* `PaddingFits`: the condition under which the padding costs nothing.

## Main results

* `sdioIoRwExtHelper_length`: a call without errors issues `commandsFor` commands.
* `sdioAlignSize_iff`: when the padded size is no smaller and takes no more commands.
-/

namespace LinuxDriver.Sdio

/-! ### The number of commands -/

/-- The most blocks that one command can take. -/
def maxBlocks (func : SdioFunc) : ℕ := min func.card.host.maxBlkCount 511

/-- The number of commands for a size: in block mode for whole blocks, and in byte mode. -/
def commandsFor (func : SdioFunc) (size : ℕ) : ℕ :=
  if func.card.multiBlock ∧ sdioMaxByteSize func < size then
    (size / func.curBlksize) ⌈/⌉ maxBlocks func +
      (size % func.curBlksize) ⌈/⌉ sdioMaxByteSize func
  else size ⌈/⌉ sdioMaxByteSize func

theorem ceilDiv_eq_one {n d : ℕ} (hn : 0 < n) (hnd : n ≤ d) : n ⌈/⌉ d = 1 := by
  have hle : n ⌈/⌉ d ≤ 1 := (ceilDiv_le_iff_le_mul (hn.trans_le hnd)).mpr (by rwa [Nat.mul_one])
  have hpos : ¬n ⌈/⌉ d ≤ 0 := by
    rw [ceilDiv_le_iff_le_mul (hn.trans_le hnd), Nat.mul_zero]
    exact Nat.not_le.mpr hn
  omega

/-- A loop that takes up to `d` at a time takes `n ⌈/⌉ d` steps. -/
theorem ceilDiv_step {n d k : ℕ} (hd : 0 < d) (hk : k = min n d) (hn : 0 < n) :
    n ⌈/⌉ d = (n - k) ⌈/⌉ d + 1 := by
  refine eq_of_forall_ge_iff fun c => ?_
  rcases c with _ | c
  · rw [ceilDiv_le_iff_le_mul hd, Nat.mul_zero]
    omega
  · rw [Nat.succ_le_succ_iff, ceilDiv_le_iff_le_mul hd, ceilDiv_le_iff_le_mul hd,
      Nat.mul_succ]
    omega

section Count

variable {func : SdioFunc} {write incrAddr : Bool} {res : ℕ → CmdResult} {addr buf n : ℕ}
  {cmds : List Cmd53}

/-- The loop ends without an error, with `count` more commands. -/
def Issues (cmds : List Cmd53) (count : ℕ) (o : Outcome) : Prop :=
  ∃ new, o = .ret 0 (cmds ++ new) ∧ new.length = count

theorem Issues.nil : Issues cmds 0 (.ret 0 cmds) := ⟨[], by rw [List.append_nil], rfl⟩

/-- One command that succeeds, and the rest. -/
theorem Issues.step (rest : List Cmd53 → Outcome) {blocks blksz count : ℕ}
    (hall : ∀ i, (res i).Succeeds func.card.host) (haddr : addr < 2 ^ 17)
    (hrest : ∀ cmds, Issues cmds count (rest cmds)) :
    Issues cmds (count + 1)
      (let done := mmcIoRwExtended func.card.host write func.num addr incrAddr buf blocks blksz
        (res cmds.length)
       if done.1 ≠ 0 then .ret done.1 (cmds ++ done.2.toList) else rest (cmds ++ done.2.toList)) := by
  obtain ⟨halloc, hret⟩ := hall cmds.length
  rcases mmcIoRwExtended_cases write incrAddr func.num buf blocks blksz (res cmds.length) haddr with
    ⟨c, hdone⟩ | ⟨hdone, hfail⟩
  · rw [hdone, hret]
    obtain ⟨new, hnew, hlen⟩ := hrest (cmds ++ [c])
    refine ⟨c :: new, ?_, by rw [List.length_cons, hlen]⟩
    dsimp only
    rw [if_neg (not_not.mpr rfl), Option.toList_some, hnew, List.append_assoc]
    rfl
  · rw [halloc] at hfail
    cases hfail

theorem byteLoop_issues (hall : ∀ i, (res i).Succeeds func.card.host)
    (hmax : 0 < sdioMaxByteSize func) {fuel : ℕ} (hfuel : n < fuel)
    (hrange : AddrInRange incrAddr addr n) :
    Issues cmds (n ⌈/⌉ sdioMaxByteSize func)
      (byteLoop func write incrAddr res fuel n addr buf cmds) := by
  induction fuel generalizing n addr buf cmds with
  | zero => exact absurd hfuel (Nat.not_lt_zero n)
  | succ fuel ih =>
    rcases Nat.eq_zero_or_pos n with rfl | hn
    · rw [zero_ceilDiv]
      exact Issues.nil
    · generalize hsize : min n (sdioMaxByteSize func) = size
      obtain ⟨hnext, hrest⟩ := hrange.next (show size ≤ n by omega)
      rw [ceilDiv_step hmax hsize.symm hn, byteLoop, if_pos hn, hsize]
      refine Issues.step _ hall (hrange.lt hn) fun cmds => ?_
      rw [hnext]
      exact ih (by omega) hrest

theorem blockLoop_issues (hall : ∀ i, (res i).Succeeds func.card.host)
    (hmax : 0 < sdioMaxByteSize func) (hblk : 0 < func.curBlksize) {fuel : ℕ}
    (hfuel : n + 1 < fuel) (hrange : AddrInRange incrAddr addr n) :
    Issues cmds ((n / func.curBlksize) ⌈/⌉ maxBlocks func +
        (n % func.curBlksize) ⌈/⌉ sdioMaxByteSize func)
      (blockLoop func write incrAddr res fuel n addr buf cmds) := by
  induction fuel generalizing n addr buf cmds with
  | zero => exact absurd hfuel (Nat.not_lt_zero _)
  | succ fuel ih =>
    rw [blockLoop]
    by_cases hblock : func.curBlksize ≤ n
    · obtain ⟨hone, -, hle⟩ := commandBlocks_bounds hblk hblock
      have hmaxBlocks : 0 < maxBlocks func := by
        have hcount := func.card.host.one_le_maxBlkCount
        rw [maxBlocks]
        omega
      have hblocks : commandBlocks func n = min (n / func.curBlksize) (maxBlocks func) := by
        rw [commandBlocks, maxBlocks]
        split_ifs <;> omega
      have hquot : 0 < n / func.curBlksize := Nat.div_pos hblock hblk
      obtain ⟨hnext, hrest⟩ := hrange.next hle
      have hleft : (n - commandBlocks func n * func.curBlksize) / func.curBlksize =
          n / func.curBlksize - commandBlocks func n := by
        rw [Nat.mul_comm, Nat.sub_mul_div]
      have hmod : (n - commandBlocks func n * func.curBlksize) % func.curBlksize =
          n % func.curBlksize := by
        rw [Nat.mul_comm]
        exact Nat.sub_mul_mod (by rwa [Nat.mul_comm])
      rw [if_pos hblock, if_neg hblk.ne', ceilDiv_step hmaxBlocks hblocks hquot, ← hleft, ← hmod,
        Nat.add_right_comm]
      refine Issues.step _ hall (hrange.lt (by omega)) fun cmds => ?_
      rw [hnext]
      have hpos : 0 < commandBlocks func n * func.curBlksize := Nat.mul_pos hone hblk
      exact ih (by omega) hrest
    · rw [if_neg hblock, Nat.div_eq_of_lt (Nat.not_le.mp hblock), zero_ceilDiv, Nat.zero_add,
        Nat.mod_eq_of_lt (Nat.not_le.mp hblock)]
      exact byteLoop_issues hall hmax (by omega) hrange

/-- **The number of commands** of a call in which every request succeeds. -/
theorem sdioIoRwExtHelper_length (hnum : func.num ≤ 7)
    (hall : ∀ i, (res i).Succeeds func.card.host) (hmax : 0 < sdioMaxByteSize func)
    (hblk : 0 < func.curBlksize) {size : ℕ} (hrange : AddrInRange incrAddr addr size) {fuel : ℕ}
    (hfuel : size + 1 < fuel) :
    ∃ cmds, sdioIoRwExtHelper func write incrAddr res fuel addr size = .ret 0 cmds ∧
      cmds.length = commandsFor func size := by
  have hissues : Issues [] (commandsFor func size)
      (sdioIoRwExtHelper func write incrAddr res fuel addr size) := by
    rw [sdioIoRwExtHelper, if_neg (Nat.not_lt.mpr hnum), commandsFor]
    split_ifs
    · exact blockLoop_issues hall hmax hblk hfuel hrange
    · exact byteLoop_issues hall hmax (by omega) hrange
  obtain ⟨new, hnew, hlen⟩ := hissues
  exact ⟨new, hnew, hlen⟩

end Count

/-! ### The padded size -/

/-- The least multiple of four that is not below `n`. -/
def upFour (n : ℕ) : ℕ := (n + 3) / 4 * 4

/-- The least multiple of `b` that is not below `n`. -/
def upBlock (b n : ℕ) : ℕ := (n + b - 1) / b * b

theorem upFour_spec (n : ℕ) : n ≤ upFour n ∧ upFour n < n + 4 ∧ 4 ∣ upFour n := by
  unfold upFour
  omega

theorem upFour_of_dvd {n : ℕ} (h : 4 ∣ n) : upFour n = n := by
  unfold upFour
  omega

theorem upFour_add {m : ℕ} (h : 4 ∣ m) (n : ℕ) : m + upFour n = upFour (m + n) := by
  unfold upFour
  omega

theorem le_upBlock {b : ℕ} (hb : 0 < b) (n : ℕ) : n ≤ upBlock b n := by
  have hdiv := Nat.div_add_mod' (n + b - 1) b
  have hmod : (n + b - 1) % b < b := Nat.mod_lt _ hb
  rw [upBlock]
  omega

theorem mmcAlignDataSize_eq {sz : ℕ} (h : sz + 3 < 2 ^ 32) : mmcAlignDataSize sz = upFour sz := by
  rw [mmcAlignDataSize, wrapAdd_of_lt h, upFour]

theorem divRoundUp_eq {n b : ℕ} (hb : 1 ≤ b) : divRoundUp n b = (n + b - 1) % 2 ^ 32 / b := by
  have hwrap : wrapSub 32 (wrapAdd 32 n b) 1 = (n + b - 1) % 2 ^ 32 := by
    unfold wrapSub wrapAdd
    omega
  rw [divRoundUp, hwrap]

/-- Rounding to whole blocks, unless it wraps. -/
theorem blkSz_eq {n b : ℕ} (hb : 1 ≤ b) (hb32 : b < 2 ^ 32) (hn : n < 2 ^ 32) :
    mmcAlignDataSize (divRoundUp n b * b % 2 ^ 32) =
      if 2 ^ 32 ≤ n + b - 1 ∨ 2 ^ 32 ≤ upBlock b n + 3 then 0 else upFour (upBlock b n) := by
  rw [divRoundUp_eq hb]
  by_cases hwrap : 2 ^ 32 ≤ n + b - 1
  · have hsmall : (n + b - 1) % 2 ^ 32 / b = 0 := Nat.div_eq_of_lt (by omega)
    rw [if_pos (.inl hwrap), hsmall, Nat.zero_mul, Nat.zero_mod]
    rfl
  · have hle : upBlock b n ≤ n + b - 1 := Nat.div_mul_le_self _ _
    have hround : (n + b - 1) % 2 ^ 32 / b * b % 2 ^ 32 = upBlock b n := by
      rw [Nat.mod_eq_of_lt (Nat.not_le.mp hwrap)]
      exact Nat.mod_eq_of_lt (by unfold upBlock at hle; omega)
    rw [hround]
    split_ifs with hpad
    · have hpad' : 2 ^ 32 ≤ upBlock b n + 3 := hpad.resolve_left hwrap
      unfold mmcAlignDataSize wrapAdd
      omega
    · exact mmcAlignDataSize_eq (by omega)

section Padding

variable (func : SdioFunc) (sz : ℕ)

/-- The padded size, with rounding that does not wrap. -/
def paddedSize : ℕ :=
  if upFour sz ≤ sdioMaxByteSize func then upFour sz
  else if func.card.multiBlock then
    if func.curBlksize ∣ upFour sz then upFour sz
    else if 2 ^ 32 ≤ upFour sz + func.curBlksize - 1 ∨
        2 ^ 32 ≤ upBlock func.curBlksize (upFour sz) + 3 then 0
    else if func.curBlksize ∣ upFour (upBlock func.curBlksize (upFour sz)) then
      upFour (upBlock func.curBlksize (upFour sz))
    else if upFour (upFour sz % func.curBlksize) ≤ sdioMaxByteSize func then
      upFour sz / func.curBlksize * func.curBlksize + upFour (upFour sz % func.curBlksize)
    else sz
  else if 4 ∣ sdioMaxByteSize func then upFour sz else sz

/-- **The padded size** in closed form. -/
theorem sdioAlignSize_eq (hblk : 0 < func.curBlksize) (hblk32 : func.curBlksize < 2 ^ 32)
    (hmax : 0 < sdioMaxByteSize func) (hsz : sz ≤ 2 ^ 31) :
    sdioAlignSize func sz = some (paddedSize func sz) := by
  have halign : mmcAlignDataSize sz = upFour sz := mmcAlignDataSize_eq (by omega)
  obtain ⟨-, hlt, -⟩ := upFour_spec sz
  have hle := sdioMaxByteSize_le func
  have hblkSz := blkSz_eq hblk hblk32 (show upFour sz < 2 ^ 32 by omega)
  rw [sdioAlignSize, halign, paddedSize]
  dsimp only
  rw [divRoundUp] at hblkSz
  rw [hblkSz]
  by_cases hbyte : upFour sz ≤ sdioMaxByteSize func
  · rw [if_pos hbyte, if_pos hbyte]
  rw [if_neg hbyte, if_neg hbyte]
  by_cases hmulti : func.card.multiBlock = true
  · have hrem : upFour sz % func.curBlksize ≤ upFour sz := Nat.mod_le _ _
    have hquot : upFour sz / func.curBlksize * func.curBlksize ≤ upFour sz :=
      Nat.div_mul_le_self _ _
    have hsum : upFour sz / func.curBlksize * func.curBlksize + upFour sz % func.curBlksize =
        upFour sz := Nat.div_add_mod' _ _
    have hrest := (upFour_spec (upFour sz % func.curBlksize)).2.1
    rw [if_pos hmulti, if_pos hmulti, if_neg hblk.ne', mmcAlignDataSize_eq (by omega),
      wrapAdd_of_lt (by omega)]
    simp only [← Nat.dvd_iff_mod_eq_zero, apply_ite some]
    by_cases hwrap : 2 ^ 32 ≤ upFour sz + func.curBlksize - 1 ∨
        2 ^ 32 ≤ upBlock func.curBlksize (upFour sz) + 3
    · simp only [if_pos hwrap, dvd_zero, if_true]
    · simp only [if_neg hwrap]
  · -- one request after the other in byte mode
    have hrem : sz % sdioMaxByteSize func ≤ sz := Nat.mod_le _ _
    have hquot : sz / sdioMaxByteSize func * sdioMaxByteSize func ≤ sz := Nat.div_mul_le_self _ _
    have hsum : sz / sdioMaxByteSize func * sdioMaxByteSize func + sz % sdioMaxByteSize func = sz :=
      Nat.div_add_mod' _ _
    have hchunk : upFour (sdioMaxByteSize func) = sdioMaxByteSize func ↔
        4 ∣ sdioMaxByteSize func :=
      ⟨fun h => h ▸ (upFour_spec _).2.2, upFour_of_dvd⟩
    rw [if_neg hmulti, if_neg hmulti, mmcAlignDataSize_eq (by omega)]
    by_cases hdvd : 4 ∣ sdioMaxByteSize func
    · have hpad : (if sz % sdioMaxByteSize func ≠ 0 then
          mmcAlignDataSize (sz % sdioMaxByteSize func) else sz % sdioMaxByteSize func) =
          upFour (sz % sdioMaxByteSize func) := by
        split_ifs with hzero
        · exact mmcAlignDataSize_eq (by omega)
        · rw [not_not.mp hzero]
          rfl
      have hmul : 4 ∣ sz / sdioMaxByteSize func * sdioMaxByteSize func := hdvd.mul_left _
      have hrest := (upFour_spec (sz % sdioMaxByteSize func)).2.1
      rw [if_pos (hchunk.mpr hdvd), if_pos hdvd, hchunk.mpr hdvd, if_neg hmax.ne', hpad,
        wrapAdd_of_lt (by omega), upFour_add hmul, hsum]
    · rw [if_neg fun h => hdvd (hchunk.mp h), if_neg hdvd]

/-! ### The commands for a padded size -/

theorem maxBlocks_pos : 0 < maxBlocks func := by
  have hcount := func.card.host.one_le_maxBlkCount
  rw [maxBlocks]
  omega

variable {func sz}

theorem ceilDiv_pos {n d : ℕ} (hd : 0 < d) (hn : 0 < n) : 1 ≤ n ⌈/⌉ d := by
  rw [ceilDiv_step hd rfl hn]
  exact Nat.le_add_left 1 _

theorem one_le_commandsFor (hblk : 0 < func.curBlksize) (hmax : 0 < sdioMaxByteSize func)
    (hsz : 0 < sz) : 1 ≤ commandsFor func sz := by
  have hN := maxBlocks_pos func
  rw [commandsFor]
  split_ifs
  · rcases Nat.eq_zero_or_pos (sz % func.curBlksize) with hrem | hrem
    · have hle : func.curBlksize ≤ sz := Nat.le_of_dvd hsz (Nat.dvd_of_mod_eq_zero hrem)
      exact (ceilDiv_pos hN (Nat.div_pos hle hblk)).trans (Nat.le_add_right _ _)
    · exact (ceilDiv_pos hmax hrem).trans (Nat.le_add_left _ _)
  · exact ceilDiv_pos hmax hsz

/-- Whole blocks. -/
theorem commandsFor_of_dvd (hmulti : func.card.multiBlock = true)
    (hlt : sdioMaxByteSize func < sz) (hdvd : func.curBlksize ∣ sz) :
    commandsFor func sz = (sz / func.curBlksize) ⌈/⌉ maxBlocks func := by
  rw [commandsFor, if_pos ⟨hmulti, hlt⟩, Nat.mod_eq_zero_of_dvd hdvd, zero_ceilDiv, Nat.add_zero]

/-- Whole blocks, and a rest of one command. -/
theorem commandsFor_add {q r : ℕ} (hmulti : func.card.multiBlock = true)
    (hlt : sdioMaxByteSize func < q * func.curBlksize + r) (hr : 0 < r) (hrb : r < func.curBlksize)
    (hrmax : r ≤ sdioMaxByteSize func) :
    commandsFor func (q * func.curBlksize + r) = q ⌈/⌉ maxBlocks func + 1 := by
  have hquot : (q * func.curBlksize + r) / func.curBlksize = q := by
    rw [Nat.mul_comm, Nat.mul_add_div (by omega), Nat.div_eq_of_lt hrb, Nat.add_zero]
  have hmod : (q * func.curBlksize + r) % func.curBlksize = r := by
    rw [Nat.mul_comm, Nat.mul_add_mod, Nat.mod_eq_of_lt hrb]
  rw [commandsFor, if_pos ⟨hmulti, hlt⟩, hquot, hmod, ceilDiv_eq_one hr hrmax]

/-- The padded rest of a size is no whole block, or rounding to blocks would have done. -/
theorem upFour_mod_ne {b n : ℕ} (hndvd : ¬b ∣ upFour (upBlock b n)) :
    upFour (n % b) ≠ b := by
  rintro heq
  have hfour : 4 ∣ b := heq ▸ (upFour_spec (n % b)).2.2
  have hround : 4 ∣ upBlock b n := hfour.mul_left _
  rw [upFour_of_dvd hround] at hndvd
  exact hndvd (Dvd.intro_left _ rfl)

/-- The blocks of a size whose rest is padded. The padding may fill a block. -/
def paddedBlocks (b n : ℕ) : ℕ := n / b + if b < upFour (n % b) then 1 else 0

/-- Whole blocks, and a padded rest that may fill one more block. -/
theorem commandsFor_padded (hmulti : func.card.multiBlock = true) (hblk : 0 < func.curBlksize)
    {n : ℕ} (hfour : 4 ∣ n) (hlt : sdioMaxByteSize func < n) (hndvd : ¬func.curBlksize ∣ n)
    (hndvd' : ¬func.curBlksize ∣ upFour (upBlock func.curBlksize n))
    (hrmax : upFour (n % func.curBlksize) ≤ sdioMaxByteSize func) :
    commandsFor func (n / func.curBlksize * func.curBlksize + upFour (n % func.curBlksize)) =
      paddedBlocks func.curBlksize n ⌈/⌉ maxBlocks func + 1 := by
  have hsum := Nat.div_add_mod' n func.curBlksize
  have hne := upFour_mod_ne hndvd'
  have hrem : 0 < n % func.curBlksize :=
    Nat.pos_of_ne_zero fun hzero => hndvd (Nat.dvd_of_mod_eq_zero hzero)
  obtain ⟨hle, hup, -⟩ := upFour_spec (n % func.curBlksize)
  rw [paddedBlocks]
  split_ifs with hfill
  · -- the block size is at least three, as it does not divide a multiple of four
    have hthree : 3 ≤ func.curBlksize := by
      by_contra hsmall
      have hdvd : func.curBlksize ∣ 4 := by
        have hcases : func.curBlksize = 1 ∨ func.curBlksize = 2 := by omega
        rcases hcases with hb | hb
        · exact hb ▸ one_dvd 4
        · rw [hb]
          norm_num
      exact hndvd (hdvd.trans hfour)
    have hmod : n % func.curBlksize < func.curBlksize := Nat.mod_lt _ (by omega)
    have hsplit : n / func.curBlksize * func.curBlksize + upFour (n % func.curBlksize) =
        (n / func.curBlksize + 1) * func.curBlksize +
          (upFour (n % func.curBlksize) - func.curBlksize) := by
      rw [Nat.succ_mul]
      omega
    rw [hsplit]
    refine commandsFor_add hmulti ?_ (by omega) (by omega) (by omega)
    rw [← hsplit]
    omega
  · exact commandsFor_add hmulti (by omega) (by omega) (by omega) hrmax

variable (func sz) in
/-- The padding costs nothing. In block mode, the blocks of the padded size have to fit in the
commands for the original size, with one command for the rest, if there is one, and no rounding may
wrap. -/
def PaddingFits : Prop :=
  upFour sz ≤ sdioMaxByteSize func ∨ func.card.multiBlock = false ∨
    if func.curBlksize ∣ upFour sz then
      upFour sz / func.curBlksize ≤ maxBlocks func * commandsFor func sz
    else
      (upFour sz + func.curBlksize - 1 < 2 ^ 32 ∧
        upBlock func.curBlksize (upFour sz) + 3 < 2 ^ 32) ∧
      if func.curBlksize ∣ upFour (upBlock func.curBlksize (upFour sz)) then
        upFour (upBlock func.curBlksize (upFour sz)) / func.curBlksize ≤
          maxBlocks func * commandsFor func sz
      else
        upFour (upFour sz % func.curBlksize) ≤ sdioMaxByteSize func →
          paddedBlocks func.curBlksize (upFour sz) ≤
            maxBlocks func * (commandsFor func sz - 1)

/-- No smaller, and no more commands. -/
def PadsWell (func : SdioFunc) (sz padded : ℕ) : Prop :=
  sz ≤ padded ∧ commandsFor func padded ≤ commandsFor func sz

theorem PadsWell.refl : PadsWell func sz sz := ⟨le_rfl, le_rfl⟩

/-- In byte mode, up to a multiple of four there is room in the last command. -/
theorem padsWell_bytes (hmulti : func.card.multiBlock = false) (hmax : 0 < sdioMaxByteSize func)
    (hfour : 4 ∣ sdioMaxByteSize func) : PadsWell func sz (upFour sz) := by
  have hcount (n : ℕ) : commandsFor func n = n ⌈/⌉ sdioMaxByteSize func := by
    rw [commandsFor, hmulti]
    exact if_neg fun h => Bool.false_ne_true h.1
  have hroom : sz ≤ sdioMaxByteSize func * (sz ⌈/⌉ sdioMaxByteSize func) :=
    (ceilDiv_le_iff_le_mul hmax).mp le_rfl
  have hdvd : 4 ∣ sdioMaxByteSize func * (sz ⌈/⌉ sdioMaxByteSize func) := hfour.mul_right _
  refine ⟨(upFour_spec sz).1, ?_⟩
  rw [hcount, hcount, ceilDiv_le_iff_le_mul hmax]
  unfold upFour
  omega

/-- One command in byte mode. -/
theorem padsWell_of_le (hblk : 0 < func.curBlksize) (hmax : 0 < sdioMaxByteSize func)
    (hle : upFour sz ≤ sdioMaxByteSize func) : PadsWell func sz (upFour sz) := by
  refine ⟨(upFour_spec sz).1, ?_⟩
  have hcount : commandsFor func (upFour sz) = upFour sz ⌈/⌉ sdioMaxByteSize func :=
    if_neg fun h => Nat.not_lt.mpr hle h.2
  rcases Nat.eq_zero_or_pos sz with rfl | hpos
  · exact le_rfl
  · have hup : 0 < upFour sz := hpos.trans_le (upFour_spec sz).1
    rw [hcount, ceilDiv_eq_one hup hle]
    exact one_le_commandsFor hblk hmax hpos

/-- **Padding.** The padded size is no smaller and takes no more commands if and only if the padding
fits. -/
theorem padsWell_paddedSize_iff (hblk : 0 < func.curBlksize) (hmax : 0 < sdioMaxByteSize func) :
    PadsWell func sz (paddedSize func sz) ↔ PaddingFits func sz := by
  have hN := maxBlocks_pos func
  obtain ⟨hup, -, hfour⟩ := upFour_spec sz
  rw [paddedSize, PaddingFits]
  by_cases hbyte : upFour sz ≤ sdioMaxByteSize func
  · rw [if_pos hbyte]
    exact iff_of_true (padsWell_of_le hblk hmax hbyte) (.inl hbyte)
  rw [if_neg hbyte, or_iff_right hbyte]
  have hlt : sdioMaxByteSize func < upFour sz := Nat.not_le.mp hbyte
  by_cases hmulti : func.card.multiBlock = true
  swap
  · have hsingle : func.card.multiBlock = false := Bool.eq_false_iff.mpr hmulti
    rw [if_neg hmulti]
    refine iff_of_true ?_ (.inl hsingle)
    split_ifs with hchunk
    · exact padsWell_bytes hsingle hmax hchunk
    · exact PadsWell.refl
  have hpos : 0 < sz := by
    by_contra hzero
    obtain rfl : sz = 0 := by omega
    exact hbyte (Nat.zero_le _)
  have hone := one_le_commandsFor hblk hmax hpos
  have hnot : func.card.multiBlock ≠ false := ne_false_of_eq_true hmulti
  rw [if_pos hmulti, or_iff_right hnot]
  by_cases hdvd : func.curBlksize ∣ upFour sz
  · rw [if_pos hdvd, if_pos hdvd, PadsWell, and_iff_right hup, commandsFor_of_dvd hmulti hlt hdvd,
      ceilDiv_le_iff_le_mul hN]
  rw [if_neg hdvd, if_neg hdvd]
  by_cases hwrap : 2 ^ 32 ≤ upFour sz + func.curBlksize - 1 ∨
      2 ^ 32 ≤ upBlock func.curBlksize (upFour sz) + 3
  · rw [if_pos hwrap]
    refine iff_of_false ?_ ?_
    · rintro ⟨hge, -⟩
      omega
    · rintro ⟨hnowrap, -⟩
      omega
  have hnowrap : upFour sz + func.curBlksize - 1 < 2 ^ 32 ∧
      upBlock func.curBlksize (upFour sz) + 3 < 2 ^ 32 := by omega
  rw [if_neg hwrap, and_iff_right hnowrap]
  have hround := le_upBlock hblk (upFour sz)
  by_cases hdvd' : func.curBlksize ∣ upFour (upBlock func.curBlksize (upFour sz))
  · have hpad := (upFour_spec (upBlock func.curBlksize (upFour sz))).1
    rw [if_pos hdvd', if_pos hdvd', PadsWell, and_iff_right (by omega),
      commandsFor_of_dvd hmulti (by omega) hdvd', ceilDiv_le_iff_le_mul hN]
  rw [if_neg hdvd', if_neg hdvd']
  by_cases hrest : upFour (upFour sz % func.curBlksize) ≤ sdioMaxByteSize func
  · have hsum := Nat.div_add_mod' (upFour sz) func.curBlksize
    have hpad := (upFour_spec (upFour sz % func.curBlksize)).1
    rw [if_pos hrest, forall_prop_of_true hrest, PadsWell, and_iff_right (by omega),
      commandsFor_padded hmulti hblk hfour hlt hdvd hdvd' hrest, ← Nat.le_sub_iff_add_le hone,
      ceilDiv_le_iff_le_mul hN]
  · rw [if_neg hrest]
    exact iff_of_true PadsWell.refl fun h => absurd h hrest

/-- In block mode, a size fits in the blocks that its commands can take. -/
theorem le_mul_commandsFor (hblk : 0 < func.curBlksize) (hmax : 0 < sdioMaxByteSize func)
    (hmulti : func.card.multiBlock = true) (hlt : sdioMaxByteSize func < sz) :
    sz ≤ func.curBlksize * (maxBlocks func * commandsFor func sz) := by
  have hN := maxBlocks_pos func
  have hsum := Nat.div_add_mod sz func.curBlksize
  have hmod : sz % func.curBlksize < func.curBlksize := Nat.mod_lt _ hblk
  have hquot : sz / func.curBlksize ≤
      maxBlocks func * ((sz / func.curBlksize) ⌈/⌉ maxBlocks func) :=
    (ceilDiv_le_iff_le_mul hN).mp le_rfl
  rw [commandsFor, if_pos ⟨hmulti, hlt⟩]
  rcases Nat.eq_zero_or_pos (sz % func.curBlksize) with hrem | hrem
  · rw [hrem, zero_ceilDiv, Nat.add_zero]
    have hmul := Nat.mul_le_mul_left func.curBlksize hquot
    omega
  · have hroom : sz / func.curBlksize + 1 ≤ maxBlocks func *
        ((sz / func.curBlksize) ⌈/⌉ maxBlocks func +
          (sz % func.curBlksize) ⌈/⌉ sdioMaxByteSize func) := by
      have hrest := Nat.mul_le_mul hN (ceilDiv_pos hmax hrem)
      rw [Nat.mul_add]
      omega
    have hmul := Nat.mul_le_mul_left func.curBlksize hroom
    rw [Nat.mul_succ] at hmul
    omega

/-- Rounded up to four, whole blocks of at least four bytes stay whole blocks only as they are. -/
theorem dvd_upFour_upBlock_iff {b : ℕ} (hb : 4 ≤ b) (n : ℕ) :
    b ∣ upFour (upBlock b n) ↔ 4 ∣ upBlock b n := by
  have hround : b ∣ upBlock b n := Dvd.intro_left _ rfl
  obtain ⟨hle, hlt, hfour⟩ := upFour_spec (upBlock b n)
  constructor
  · intro hdvd
    have hrest : b ∣ upFour (upBlock b n) - upBlock b n := Nat.dvd_sub hdvd hround
    have hzero : upFour (upBlock b n) - upBlock b n = 0 :=
      Nat.eq_zero_of_dvd_of_lt hrest (by omega)
    have heq : upFour (upBlock b n) = upBlock b n := by omega
    exact heq ▸ hfour
  · intro hdvd
    rwa [upFour_of_dvd hdvd]

/-- For more bytes than one command in byte mode takes, and blocks of at least four, a padded size
that is whole blocks at once costs nothing, and one that is rounded to blocks has to fit in the
commands for the original size. -/
theorem paddingFits_iff_of_lt (hblk : 4 ≤ func.curBlksize) (hmax : 0 < sdioMaxByteSize func)
    (hlt : sdioMaxByteSize func < sz) :
    PaddingFits func sz ↔ func.card.multiBlock = false ∨ func.curBlksize ∣ upFour sz ∨
      (upFour sz + func.curBlksize - 1 < 2 ^ 32 ∧
        upBlock func.curBlksize (upFour sz) + 3 < 2 ^ 32) ∧
      if 4 ∣ upBlock func.curBlksize (upFour sz) then
        upFour sz ≤ func.curBlksize * (maxBlocks func * commandsFor func sz)
      else
        upFour (upFour sz % func.curBlksize) ≤ sdioMaxByteSize func →
          paddedBlocks func.curBlksize (upFour sz) ≤
            maxBlocks func * (commandsFor func sz - 1) := by
  have hpos : 0 < func.curBlksize := by omega
  obtain ⟨hup, hfew, -⟩ := upFour_spec sz
  have hbyte : ¬upFour sz ≤ sdioMaxByteSize func := by omega
  rw [PaddingFits, or_iff_right hbyte]
  by_cases hsingle : func.card.multiBlock = false
  · exact iff_of_true (.inl hsingle) (.inl hsingle)
  have hroom : sz ≤ func.curBlksize * (maxBlocks func * commandsFor func sz) :=
    le_mul_commandsFor hpos hmax (Bool.eq_true_of_not_eq_false hsingle) hlt
  rw [or_iff_right hsingle, or_iff_right hsingle]
  by_cases hdvd : func.curBlksize ∣ upFour sz
  · rw [if_pos hdvd]
    refine iff_of_true (Nat.lt_succ_iff.mp (Nat.div_lt_of_lt_mul ?_)) (.inl hdvd)
    rw [Nat.mul_succ]
    omega
  rw [if_neg hdvd, or_iff_right hdvd]
  refine and_congr_right fun _ => ?_
  have hfour := dvd_upFour_upBlock_iff hblk (upFour sz)
  by_cases hround : 4 ∣ upBlock func.curBlksize (upFour sz)
  · rw [if_pos (hfour.mpr hround), if_pos hround, upFour_of_dvd hround, upBlock,
      Nat.mul_div_cancel _ hpos, ← Nat.ceilDiv_eq_add_pred_div, ceilDiv_le_iff_le_mul hpos]
  · rw [if_neg (mt hfour.mp hround), if_neg hround]

/-- With a block size and a byte mode size that are multiples of four, the padding always fits. -/
theorem paddingFits_of_dvd_four (hblk : 0 < func.curBlksize) (hmax : 0 < sdioMaxByteSize func)
    (hfour : 4 ∣ func.curBlksize) (hmaxfour : 4 ∣ sdioMaxByteSize func)
    (hblk30 : func.curBlksize ≤ 2 ^ 30) (hsz : sz ≤ 2 ^ 31) : PaddingFits func sz := by
  obtain ⟨hup, hlt, hupfour⟩ := upFour_spec sz
  by_cases hbyte : upFour sz ≤ sdioMaxByteSize func
  · exact .inl hbyte
  have hlong : sdioMaxByteSize func < sz := by omega
  refine (paddingFits_iff_of_lt (Nat.le_of_dvd hblk hfour) hmax hlong).mpr ?_
  refine or_iff_not_imp_left.mpr fun hsingle => .inr ⟨?_, ?_⟩
  · have hle : upBlock func.curBlksize (upFour sz) ≤ upFour sz + func.curBlksize - 1 :=
      Nat.div_mul_le_self _ _
    omega
  · have hround : 4 ∣ upBlock func.curBlksize (upFour sz) := hfour.mul_left _
    rw [if_pos hround]
    have hroom : sz ≤ func.curBlksize * (maxBlocks func * commandsFor func sz) :=
      le_mul_commandsFor hblk hmax (Bool.eq_true_of_not_eq_false hsingle) hlong
    have hroomfour : 4 ∣ func.curBlksize * (maxBlocks func * commandsFor func sz) :=
      hfour.mul_right _
    omega

/-- **Padding never costs commands, if it fits.** A call without errors issues `commandsFor`
commands, and the padded size is no smaller and takes no more of them if and only if the padding
fits. -/
theorem sdioAlignSize_iff (func : SdioFunc) (hnum : func.num ≤ 7) (hblk : 0 < func.curBlksize)
    (hblk32 : func.curBlksize < 2 ^ 32) (hmax : 0 < sdioMaxByteSize func) {sz : ℕ}
    (hsz : sz ≤ 2 ^ 31) :
    (∀ (write incrAddr : Bool) (res : ℕ → CmdResult) (addr size fuel : ℕ),
      (∀ i, (res i).Succeeds func.card.host) → AddrInRange incrAddr addr size → size + 1 < fuel →
      ∃ cmds, sdioIoRwExtHelper func write incrAddr res fuel addr size = .ret 0 cmds ∧
        cmds.length = commandsFor func size) ∧
    ∃ padded, sdioAlignSize func sz = some padded ∧
      (sz ≤ padded ∧ commandsFor func padded ≤ commandsFor func sz ↔ PaddingFits func sz) := by
  refine ⟨fun write incrAddr res addr size fuel hall hrange hfuel => ?_, paddedSize func sz, ?_, ?_⟩
  · exact sdioIoRwExtHelper_length hnum hall hmax hblk hrange hfuel
  · exact sdioAlignSize_eq func sz hblk hblk32 hmax hsz
  · exact padsWell_paddedSize_iff hblk hmax

end Padding

/-- Blocks of 512 bytes: 1025 bytes are padded to three blocks, for one command and not for two. -/
theorem sdioAlignSize_iff_sample :
    ∃ padded, sdioAlignSize ⟨⟨pageHost, true, false, false⟩, 1, 512, 512⟩ 1025 = some padded ∧
      1025 ≤ padded ∧ commandsFor ⟨⟨pageHost, true, false, false⟩, 1, 512, 512⟩ padded ≤
        commandsFor ⟨⟨pageHost, true, false, false⟩, 1, 512, 512⟩ 1025 := by
  have hfits : PaddingFits ⟨⟨pageHost, true, false, false⟩, 1, 512, 512⟩ 1025 := by
    unfold PaddingFits
    decide
  obtain ⟨-, padded, hpadded, hiff⟩ := @sdioAlignSize_iff
    ⟨⟨pageHost, true, false, false⟩, 1, 512, 512⟩ (by decide) (by decide) (by decide) (by decide)
    1025 (by decide)
  exact ⟨padded, hpadded, hiff.mpr hfits⟩

/-- A card with blocks of 511 bytes that cannot take 512 bytes in byte mode: 509 bytes are one
command, and are padded to 515 bytes, which are two. -/
theorem sdioAlignSize_costs :
    ¬∀ (func : SdioFunc) (sz padded : ℕ), func.num ≤ 7 → 0 < func.curBlksize →
      func.curBlksize < 2 ^ 32 → 0 < sdioMaxByteSize func → sz ≤ 2 ^ 31 →
      sdioAlignSize func sz = some padded →
      sz ≤ padded ∧ commandsFor func padded ≤ commandsFor func sz := by
  rintro h
  have hpads := h ⟨⟨pageHost, true, false, true⟩, 1, 512, 511⟩ 509 515 (by decide) (by decide)
    (by decide) (by decide) (by decide) (by decide)
  exact absurd hpads.2 (by decide)

end LinuxDriver.Sdio
