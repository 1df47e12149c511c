import LinuxDriver.Kernel
import LinuxDriver.MachineInt
import LinuxDriver.Tiling

/-!
# CMD53, the extended transfer of SDIO

`mmc_io_rw_extended` packs a transfer into the argument of a CMD53 and cuts its buffer into a
scatter list. The format of the argument is stated by a decoder: the fields of an argument are what
a card reads in it.

## Main definitions

* `SdioHost`: the limits of a host.
* `Cmd53`, `mmcIoRwExtended`: a command, and how it is made.
* `Cmd53Fields`, `decodeCmd53`: the fields of an argument.
* `Cmd53.transfers`: the bytes that a command transfers, by their addresses and their places in
  the buffer.

## Main results

* `decodeCmd53_arg`: no field of an argument overflows into another one.
* `tiles_scatter`: the scatter list is a partition of the buffer of the command.
-/

namespace LinuxDriver.Sdio

/-! ### Commands -/

/-- The limits of a host, none of which is zero, and whether it is on SPI. -/
structure SdioHost where
  maxBlkSize : ℕ
  maxBlkCount : ℕ
  maxSegSize : ℕ
  spi : Bool
  one_le_maxBlkSize : 1 ≤ maxBlkSize
  one_le_maxBlkCount : 1 ≤ maxBlkCount
  one_le_maxSegSize : 1 ≤ maxSegSize
  maxSegSize_lt : maxSegSize < 2 ^ 32

/-- A CMD53: its argument, the size and number of the blocks of its data, and its scatter list as
pieces of the buffer. -/
structure Cmd53 where
  arg : ℕ
  blksz : ℕ
  blocks : ℕ
  sg : List Chunk

/-- What the environment decides about a CMD53: whether the scatter list can be allocated, and the
errors and the response of the request. -/
structure CmdResult where
  alloc : Bool
  cmdError : ℤ
  dataError : ℤ
  resp0 : ℕ

def r5Error : ℕ := 1 <<< 11
def r5FunctionNumber : ℕ := 1 <<< 9
def r5OutOfRange : ℕ := 1 <<< 8

/-- What `mmc_io_rw_extended` returns for a request that was carried out. -/
def CmdResult.ret (host : SdioHost) (res : CmdResult) : ℤ :=
  if res.cmdError ≠ 0 then res.cmdError
  else if res.dataError ≠ 0 then res.dataError
  else if host.spi then 0
  else if res.resp0 &&& r5Error ≠ 0 then -eio
  else if res.resp0 &&& r5FunctionNumber ≠ 0 then -einval
  else if res.resp0 &&& r5OutOfRange ≠ 0 then -erange
  else 0

/-- The argument of a CMD53 of `mmc_io_rw_extended`. -/
def cmd53Arg (write : Bool) (fn addr : ℕ) (incrAddr : Bool) (blocks blksz : ℕ) : ℕ :=
  let arg := if write then 0x80000000 else 0x00000000
  let arg := arg ||| fn <<< 28 % 2 ^ 32
  let arg := arg ||| if incrAddr then 0x04000000 else 0x00000000
  let arg := arg ||| addr <<< 9 % 2 ^ 32
  if blocks = 0 then arg ||| if blksz = 512 then 0 else blksz
  else arg ||| (0x08000000 ||| blocks)

/-- The loop that fills the scatter list, from entry `i` on, with the number of those left. -/
def fillSg (buf segSize : ℕ) : ℕ → ℕ → ℕ → List Chunk
  | 0, _, _ => []
  | n + 1, i, leftSize =>
    ⟨buf + i * segSize, min segSize leftSize⟩ ::
      fillSg buf segSize n (i + 1) (wrapSub 32 leftSize segSize)

/-- `DIV_ROUND_UP` of 32-bit unsigned integers. -/
def divRoundUp (n d : ℕ) : ℕ := wrapSub 32 (wrapAdd 32 n d) 1 / d

/-- The scatter list of `leftSize` bytes. -/
def scatter (buf segSize leftSize : ℕ) : List Chunk :=
  let nents := divRoundUp leftSize segSize
  if 1 < nents then fillSg buf segSize nents 0 leftSize else [⟨buf, leftSize⟩]

/-- `mmc_io_rw_extended`: what it returns, and the command that it issues, if any. -/
def mmcIoRwExtended (host : SdioHost) (write : Bool) (fn addr : ℕ) (incrAddr : Bool)
    (buf blocks blksz : ℕ) (res : CmdResult) : ℤ × Option Cmd53 :=
  if 2 ^ 17 ≤ addr then (-einval, none)
  else
    let dataBlocks := if blocks = 0 then 1 else blocks
    let leftSize := blksz * dataBlocks % 2 ^ 32
    if 1 < divRoundUp leftSize host.maxSegSize ∧ ¬res.alloc then (-enomem, none)
    else (res.ret host, some ⟨cmd53Arg write fn addr incrAddr blocks blksz, blksz, dataBlocks,
      scatter buf host.maxSegSize leftSize⟩)

/-! ### The format of the argument -/

/-- The fields of a CMD53 argument. -/
structure Cmd53Fields where
  write : Bool
  fn : ℕ
  block : Bool
  incr : Bool
  addr : ℕ
  count : ℕ
  deriving DecidableEq

/-- What a card reads in an argument: a bit for the direction, 3 for the function, one for the
block mode, one for incrementing addresses, 17 for the address and 9 for the count. -/
def decodeCmd53 (arg : ℕ) : Cmd53Fields where
  write := arg / 2 ^ 31 % 2 = 1
  fn := arg / 2 ^ 28 % 2 ^ 3
  block := arg / 2 ^ 27 % 2 = 1
  incr := arg / 2 ^ 26 % 2 = 1
  addr := arg / 2 ^ 9 % 2 ^ 17
  count := arg % 2 ^ 9

/-- Fields below each other do not overlap. -/
theorem shift_or_eq_add {n b i : ℕ} (h : b < 2 ^ i) : n <<< i ||| b = n * 2 ^ i + b := by
  rw [Nat.shiftLeft_eq, Nat.mul_comm, Nat.two_pow_add_eq_or_of_lt h]

/-- The fields in the order of their bits add up. -/
theorem or_fields (w f b i a c : ℕ) (hf : f < 2 ^ 3) (hb : b < 2) (hi : i < 2) (ha : a < 2 ^ 17)
    (hc : c < 2 ^ 9) :
    w <<< 31 ||| f <<< 28 ||| i <<< 26 ||| a <<< 9 ||| (b <<< 27 ||| c) =
      w * 2 ^ 31 + (f * 2 ^ 28 + (b * 2 ^ 27 + (i * 2 ^ 26 + (a * 2 ^ 9 + c)))) := by
  have hac : a <<< 9 ||| c = a * 2 ^ 9 + c := shift_or_eq_add hc
  have hiac : i <<< 26 ||| (a * 2 ^ 9 + c) = i * 2 ^ 26 + (a * 2 ^ 9 + c) :=
    shift_or_eq_add (by omega)
  have hbiac : b <<< 27 ||| (i * 2 ^ 26 + (a * 2 ^ 9 + c)) =
      b * 2 ^ 27 + (i * 2 ^ 26 + (a * 2 ^ 9 + c)) := shift_or_eq_add (by omega)
  have hfbiac : f <<< 28 ||| (b * 2 ^ 27 + (i * 2 ^ 26 + (a * 2 ^ 9 + c))) =
      f * 2 ^ 28 + (b * 2 ^ 27 + (i * 2 ^ 26 + (a * 2 ^ 9 + c))) := shift_or_eq_add (by omega)
  rw [← shift_or_eq_add (n := w) (by omega), ← hfbiac, ← hbiac, ← hiac, ← hac]
  simp only [Nat.or_assoc, Nat.or_left_comm]

/-- The count in the argument: the number of blocks, or the number of bytes with 0 for 512. -/
def cmd53Count (blocks blksz : ℕ) : ℕ :=
  if blocks = 0 then if blksz = 512 then 0 else blksz else blocks

theorem cmd53Arg_eq {write incrAddr : Bool} {fn addr blocks blksz : ℕ} (hfn : fn < 2 ^ 3)
    (haddr : addr < 2 ^ 17) (hcount : cmd53Count blocks blksz < 2 ^ 9) :
    cmd53Arg write fn addr incrAddr blocks blksz =
      write.toNat * 2 ^ 31 + (fn * 2 ^ 28 + ((decide (blocks ≠ 0)).toNat * 2 ^ 27 +
        (incrAddr.toNat * 2 ^ 26 + (addr * 2 ^ 9 + cmd53Count blocks blksz)))) := by
  have hwrite : (if write then 0x80000000 else 0x00000000) = write.toNat <<< 31 := by
    cases write <;> rfl
  have hincr : (if incrAddr then 0x04000000 else 0x00000000) = incrAddr.toNat <<< 26 := by
    cases incrAddr <;> rfl
  have hfnmod : fn <<< 28 % 2 ^ 32 = fn <<< 28 :=
    Nat.mod_eq_of_lt (by rw [Nat.shiftLeft_eq]; omega)
  have haddrmod : addr <<< 9 % 2 ^ 32 = addr <<< 9 :=
    Nat.mod_eq_of_lt (by rw [Nat.shiftLeft_eq]; omega)
  rw [← or_fields _ _ _ _ _ _ hfn (Bool.toNat_lt _) (Bool.toNat_lt _) haddr hcount]
  unfold cmd53Arg cmd53Count
  dsimp only
  rw [hwrite, hincr, hfnmod, haddrmod]
  by_cases hblocks : blocks = 0
  · simp [hblocks]
  · simp [hblocks]

private theorem decide_toNat_eq_one (b : Bool) : decide (b.toNat = 1) = b := by
  cases b <;> rfl

/-- **The fields of an argument** are those it was made of, and it has no other bits. -/
theorem decodeCmd53_arg {write incrAddr : Bool} {fn addr blocks blksz : ℕ} (hfn : fn < 2 ^ 3)
    (haddr : addr < 2 ^ 17) (hcount : cmd53Count blocks blksz < 2 ^ 9) :
    cmd53Arg write fn addr incrAddr blocks blksz < 2 ^ 32 ∧
      decodeCmd53 (cmd53Arg write fn addr incrAddr blocks blksz) =
        ⟨write, fn, decide (blocks ≠ 0), incrAddr, addr, cmd53Count blocks blksz⟩ := by
  rw [cmd53Arg_eq hfn haddr hcount]
  generalize decide (blocks ≠ 0) = block
  generalize cmd53Count blocks blksz = count at hcount
  generalize harg : write.toNat * 2 ^ 31 + (fn * 2 ^ 28 + (block.toNat * 2 ^ 27 +
    (incrAddr.toNat * 2 ^ 26 + (addr * 2 ^ 9 + count)))) = arg
  have hw := Bool.toNat_lt write
  have hb := Bool.toNat_lt block
  have hi := Bool.toNat_lt incrAddr
  have hwrite : arg / 2 ^ 31 % 2 = write.toNat := by omega
  have hblock : arg / 2 ^ 27 % 2 = block.toNat := by omega
  have hincr : arg / 2 ^ 26 % 2 = incrAddr.toNat := by omega
  refine ⟨by omega, ?_⟩
  rw [decodeCmd53, Cmd53Fields.mk.injEq, hwrite, hblock, hincr]
  refine ⟨decide_toNat_eq_one _, ?_, decide_toNat_eq_one _, decide_toNat_eq_one _, ?_, ?_⟩
  · omega
  · omega
  · omega

/-! ### Scatter lists -/

/-- The entries of a scatter list come one behind the other. What is left falls below zero only at
the last one. -/
theorem tiles_fillSg {segSize : ℕ} (hsegw : segSize < 2 ^ 32) (buf n i leftSize : ℕ)
    (hleft : leftSize < 2 ^ 32) (hlow : (n - 1) * segSize < leftSize)
    (hhigh : leftSize ≤ n * segSize) :
    Tiles (buf + i * segSize) (fillSg buf segSize n i leftSize).reverse leftSize := by
  induction n generalizing i leftSize with
  | zero => omega
  | succ n ih =>
    have hpos : 0 < leftSize := Nat.zero_lt_of_lt hlow
    rw [fillSg, List.reverse_cons]
    cases n with
    | zero =>
      have hmin : min segSize leftSize = leftSize := min_eq_right (by omega)
      rw [hmin, fillSg, List.reverse_nil]
      exact (Tiles.nil _).append_singleton hpos
    | succ n =>
      have hmul : (n + 1) * segSize = n * segSize + segSize := Nat.succ_mul n segSize
      have hmul' : (n + 1 + 1) * segSize = (n + 1) * segSize + segSize := Nat.succ_mul _ segSize
      have hlow' : (n + 1) * segSize < leftSize := hlow
      have hle : segSize ≤ leftSize := by
        have := Nat.zero_le (n * segSize)
        omega
      have hsegpos : 0 < segSize := by
        by_contra hzero
        obtain rfl : segSize = 0 := by omega
        omega
      have hrest := ih (i + 1) (leftSize - segSize) (by omega)
        (by rw [Nat.add_sub_cancel]; omega) (by omega)
      have hnext : buf + (i + 1) * segSize = buf + i * segSize + segSize := by
        rw [Nat.succ_mul, Nat.add_assoc]
      rw [hnext] at hrest
      have hcons := hrest.append_singleton hsegpos
      rw [min_eq_left hle, wrapSub_of_le hleft hle]
      rwa [Nat.add_sub_cancel' hle] at hcons

theorem size_le_of_mem_fillSg {segSize buf n i leftSize : ℕ} {c : Chunk}
    (hc : c ∈ fillSg buf segSize n i leftSize) : c.size ≤ segSize := by
  induction n generalizing i leftSize with
  | zero => exact absurd hc List.not_mem_nil
  | succ n ih =>
    rcases List.mem_cons.mp hc with rfl | hc
    · exact min_le_left _ _
    · exact ih hc

theorem divRoundUp_of_lt {n d : ℕ} (hd : 0 < d) (h : n + d < 2 ^ 32) (hn : 0 < n) :
    divRoundUp n d = (n - 1) / d + 1 := by
  have hsub : n + d - 1 = n - 1 + d := by omega
  rw [divRoundUp, wrapAdd_of_lt h, wrapSub_of_le h (by omega), hsub, Nat.add_div_right _ hd]

/-- **The scatter list** is a partition of the range into pieces that the host can take. The host
may take pieces so large that the rounding wraps. -/
theorem tiles_scatter {segSize leftSize : ℕ} (buf : ℕ) (hseg : 0 < segSize)
    (hsegw : segSize < 2 ^ 32) (hpos : 0 < leftSize) (hleft : leftSize < 2 ^ 31) :
    Tiles buf (scatter buf segSize leftSize).reverse leftSize ∧
      ∀ c ∈ scatter buf segSize leftSize, c.size ≤ segSize := by
  have hsingle : Tiles buf [(⟨buf, leftSize⟩ : Chunk)].reverse leftSize :=
    (Tiles.nil _).append_singleton hpos
  unfold scatter
  dsimp only
  by_cases hwrap : leftSize + segSize < 2 ^ 32
  · rw [divRoundUp_of_lt hseg hwrap hpos]
    have hdiv : segSize * ((leftSize - 1) / segSize) + (leftSize - 1) % segSize = leftSize - 1 :=
      Nat.div_add_mod _ _
    have hmod : (leftSize - 1) % segSize < segSize := Nat.mod_lt _ hseg
    generalize (leftSize - 1) / segSize = q at hdiv
    split_ifs with hnents
    · refine ⟨?_, fun c hc => size_le_of_mem_fillSg hc⟩
      have hfill := tiles_fillSg hsegw buf (q + 1) 0 leftSize (by omega)
        (by rw [Nat.add_sub_cancel, Nat.mul_comm]; omega)
        (by rw [Nat.succ_mul, Nat.mul_comm]; omega)
      rwa [Nat.zero_mul, Nat.add_zero] at hfill
    · obtain rfl : q = 0 := by omega
      refine ⟨hsingle, fun c hc => ?_⟩
      obtain rfl := List.mem_singleton.mp hc
      dsimp only
      omega
  · have hsmall : ¬1 < divRoundUp leftSize segSize := by
      have hadd : wrapAdd 32 leftSize segSize = leftSize + segSize - 2 ^ 32 := by
        rw [wrapAdd, Nat.mod_eq_sub_mod (by omega), Nat.mod_eq_of_lt (by omega)]
      have hlt : wrapSub 32 (leftSize + segSize - 2 ^ 32) 1 < 2 * segSize := by
        unfold wrapSub
        omega
      rw [divRoundUp, hadd]
      have hdiv := (Nat.div_lt_iff_lt_mul hseg).mpr hlt
      omega
    rw [if_neg hsmall]
    refine ⟨hsingle, fun c hc => ?_⟩
    obtain rfl := List.mem_singleton.mp hc
    dsimp only
    omega

/-! ### What a command transfers -/

namespace Cmd53

variable (c : Cmd53) (blksize : ℕ)

/-- The number of bytes that a card with the given block size transfers for a command. -/
def length : ℕ :=
  let fields := decodeCmd53 c.arg
  if fields.block then fields.count * blksize
  else if fields.count = 0 then 512 else fields.count

/-- The addresses of these bytes. -/
def addresses : List ℕ :=
  let fields := decodeCmd53 c.arg
  (List.range (c.length blksize)).map fun i => if fields.incr then fields.addr + i else fields.addr

/-- The places of the bytes of the scatter list in the buffer. -/
def offsets : List ℕ := c.sg.flatMap fun p => List.range' p.pos p.size

/-- The bytes that a command transfers, each by its address and its place in the buffer. -/
def transfers : List (ℕ × ℕ) := (c.addresses blksize).zip c.offsets

/-- A command with the direction, function and kind of addresses that were asked for, whose number
of blocks the host can take, and whose data and scatter list are as long as what it transfers. -/
structure WellFormed (host : SdioHost) (write : Bool) (fn : ℕ) (incrAddr : Bool) (blksize : ℕ)
    (c : Cmd53) : Prop where
  lt : c.arg < 2 ^ 32
  write : (decodeCmd53 c.arg).write = write
  fn : (decodeCmd53 c.arg).fn = fn
  incr : (decodeCmd53 c.arg).incr = incrAddr
  blocks : (decodeCmd53 c.arg).block = true →
    1 ≤ (decodeCmd53 c.arg).count ∧ (decodeCmd53 c.arg).count ≤ min host.maxBlkCount 511
  data : c.blksz * c.blocks = c.length blksize
  sg : ∃ pos, Tiles pos c.sg.reverse (c.length blksize)
  piece : ∀ p ∈ c.sg, p.size ≤ host.maxSegSize

end Cmd53

/-- The bytes from offset `buf` on, at consecutive addresses or all at the same one. -/
def plainTransfers (incrAddr : Bool) (addr buf n : ℕ) : List (ℕ × ℕ) :=
  (List.range n).map fun i => (if incrAddr then addr + i else addr, buf + i)

theorem plainTransfers_add (incrAddr : Bool) (addr buf m n : ℕ) :
    plainTransfers incrAddr addr buf (m + n) =
      plainTransfers incrAddr addr buf m ++
        plainTransfers incrAddr (if incrAddr then addr + m else addr) (buf + m) n := by
  simp only [plainTransfers, List.range_add, List.map_append, List.map_map]
  congr 1
  refine List.map_congr_left fun i _ => ?_
  cases incrAddr <;> simp [Nat.add_assoc]

/-- The numbers of blocks and their sizes that `sdio_io_rw_ext_helper` passes on: bytes as one block
with no number, or blocks of the size of the function. -/
inductive CmdSize (host : SdioHost) (blksize : ℕ) : ℕ → ℕ → ℕ → Prop
  | bytes {n : ℕ} (hpos : 1 ≤ n) (hle : n ≤ 512) : CmdSize host blksize 0 n n
  | blocks {n : ℕ} (hpos : 1 ≤ n) (hle : n ≤ min host.maxBlkCount 511) (hblk : 1 ≤ blksize)
      (hblk' : blksize ≤ 2048) : CmdSize host blksize n blksize (n * blksize)

theorem CmdSize.bounds {host : SdioHost} {blksize blocks blksz n : ℕ}
    (h : CmdSize host blksize blocks blksz n) : 0 < n ∧ n < 2 ^ 31 ∧
      cmd53Count blocks blksz < 2 ^ 9 ∧ blksz * (if blocks = 0 then 1 else blocks) = n := by
  cases h with
  | bytes hpos hle =>
    refine ⟨hpos, by omega, ?_, Nat.mul_one blksz⟩
    unfold cmd53Count
    split_ifs <;> omega
  | blocks hpos hle hblk hblk' =>
    have hm : blocks ≤ 511 := hle.trans (min_le_right _ _)
    have hne : blocks ≠ 0 := by omega
    have hmul : blocks * blksize ≤ 511 * 2048 := Nat.mul_le_mul hm hblk'
    refine ⟨Nat.mul_pos hpos hblk, by omega, ?_, ?_⟩
    · rw [cmd53Count, if_neg hne]
      omega
    · rw [if_neg hne, Nat.mul_comm]

/-- The length in the argument is the number of bytes. -/
theorem CmdSize.length_eq {host : SdioHost} {blksize blocks blksz n : ℕ} {c : Cmd53} {fn addr : ℕ}
    {write incrAddr : Bool} (h : CmdSize host blksize blocks blksz n)
    (hdecode : decodeCmd53 c.arg =
      ⟨write, fn, decide (blocks ≠ 0), incrAddr, addr, cmd53Count blocks blksz⟩) :
    c.length blksize = n := by
  rw [Cmd53.length, hdecode]
  cases h with
  | bytes hpos hle =>
    simp only [cmd53Count, ne_eq, not_true_eq_false, decide_false, Bool.false_eq_true, if_false,
      if_true]
    split_ifs <;> omega
  | blocks hpos hle hblk hblk' =>
    simp [cmd53Count, Nat.ne_of_gt hpos]

/-- **One command** transfers the bytes of its part of the buffer in their order. -/
theorem mmcIoRwExtended_snd {host : SdioHost} {write incrAddr : Bool} {fn addr blocks blksz : ℕ}
    {blksize n : ℕ} (buf : ℕ) (res : CmdResult) (hfn : fn < 2 ^ 3) (haddr : addr < 2 ^ 17)
    (hsize : CmdSize host blksize blocks blksz n) :
    ∀ c ∈ (mmcIoRwExtended host write fn addr incrAddr buf blocks blksz res).2,
      c.WellFormed host write fn incrAddr blksize ∧
        c.transfers blksize = plainTransfers incrAddr addr buf n := by
  obtain ⟨hpos, hlt, hcount, hbytes⟩ := hsize.bounds
  have hmod : n % 2 ^ 32 = n := Nat.mod_eq_of_lt (by omega)
  have hcmd : mmcIoRwExtended host write fn addr incrAddr buf blocks blksz res =
      if 1 < divRoundUp n host.maxSegSize ∧ ¬res.alloc then (-enomem, none)
      else (res.ret host, some ⟨cmd53Arg write fn addr incrAddr blocks blksz, blksz,
        if blocks = 0 then 1 else blocks, scatter buf host.maxSegSize n⟩) := by
    rw [mmcIoRwExtended, if_neg (Nat.not_le.mpr haddr)]
    dsimp only
    rw [hbytes, hmod]
  intro c hc
  rw [hcmd] at hc
  by_cases hfail : 1 < divRoundUp n host.maxSegSize ∧ ¬res.alloc = true
  · rw [if_pos hfail] at hc
    exact absurd hc (Option.not_mem_none c)
  rw [if_neg hfail] at hc
  obtain rfl := Option.some.inj hc
  obtain ⟨harg, hdecode⟩ := @decodeCmd53_arg write incrAddr fn addr blocks blksz hfn haddr hcount
  obtain ⟨htiles, hpiece⟩ :=
    tiles_scatter buf host.one_le_maxSegSize host.maxSegSize_lt hpos hlt
  generalize hc : Cmd53.mk _ _ _ _ = c
  have hcarg : c.arg = cmd53Arg write fn addr incrAddr blocks blksz := by rw [← hc]
  have hcsg : c.sg = scatter buf host.maxSegSize n := by rw [← hc]
  have hcdata : c.blksz * c.blocks = n := by rw [← hc, ← hbytes]
  rw [← hcarg] at harg hdecode
  rw [← hcsg] at htiles hpiece
  have hlen : c.length blksize = n := hsize.length_eq hdecode
  refine ⟨⟨harg, by rw [hdecode], by rw [hdecode], by rw [hdecode], ?_, hcdata.trans hlen.symm,
    ⟨buf, hlen.symm ▸ htiles⟩, hpiece⟩, ?_⟩
  · rw [hdecode]
    cases hsize with
    | bytes => simp
    | blocks hm hle =>
      rw [cmd53Count, if_neg (Nat.ne_of_gt hm)]
      exact fun _ => ⟨hm, hle⟩
  · have hoffsets : c.offsets = (List.range n).map (buf + ·) := by
      rw [Cmd53.offsets, ← List.reverse_reverse c.sg, htiles.flatMap_reverse,
        List.range'_eq_map_range]
    rw [Cmd53.transfers, Cmd53.addresses, hlen, hoffsets, List.zip_map', hdecode]
    rfl

/-- With an address of the card, a command is issued unless the scatter list is not allocated. -/
theorem mmcIoRwExtended_cases {host : SdioHost} {addr : ℕ} (write incrAddr : Bool)
    (fn buf blocks blksz : ℕ) (res : CmdResult) (haddr : addr < 2 ^ 17) :
    (∃ c, mmcIoRwExtended host write fn addr incrAddr buf blocks blksz res =
        (res.ret host, some c)) ∨
      mmcIoRwExtended host write fn addr incrAddr buf blocks blksz res = (-enomem, none) ∧
        res.alloc = false := by
  rw [mmcIoRwExtended, if_neg (Nat.not_le.mpr haddr)]
  dsimp only
  by_cases hfail : 1 < divRoundUp (blksz * (if blocks = 0 then 1 else blocks) % 2 ^ 32)
      host.maxSegSize ∧ ¬res.alloc = true
  · rw [if_pos hfail]
    exact .inr ⟨rfl, Bool.eq_false_iff.mpr hfail.2⟩
  · rw [if_neg hfail]
    exact .inl ⟨_, rfl⟩

end LinuxDriver.Sdio
