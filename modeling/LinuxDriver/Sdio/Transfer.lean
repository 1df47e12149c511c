import LinuxDriver.Sdio.Extended

/-!
# Transfers of any size to an SDIO function

`sdio_io_rw_ext_helper` splits a transfer into CMD53 commands: as many blocks as a command can take
as long as a block is left, then the bytes that are left. Nothing in the code bounds its loops, so
they are run with fuel, and a division by zero has an outcome of its own.

## Main definitions

* `SdioCard`, `SdioFunc`, `sdioMaxByteSize`.
* `Outcome`, `sdioIoRwExtHelper`.
* `PlainAccess`: the commands are plain memory access.

## Main results

* `sdioIoRwExtHelper_plainAccess`: the bytes of the buffer are transferred once and in order.
-/

namespace LinuxDriver.Sdio

/-! ### Functions of a card -/

/-- What the transfers read of a card: `cccr.multi_block` and two quirks. -/
structure SdioCard where
  host : SdioHost
  multiBlock : Bool
  blkszForByteMode : Bool
  brokenByteMode512 : Bool

/-- A function of a card, with its largest and its current block size. -/
structure SdioFunc where
  card : SdioCard
  num : ℕ
  maxBlksize : ℕ
  curBlksize : ℕ

/-- `sdio_max_byte_size` -/
def sdioMaxByteSize (func : SdioFunc) : ℕ :=
  let mval := func.card.host.maxBlkSize
  let mval :=
    if func.card.blkszForByteMode then min mval func.curBlksize else min mval func.maxBlksize
  if func.card.brokenByteMode512 then min mval 511 else min mval 512

theorem sdioMaxByteSize_le (func : SdioFunc) : sdioMaxByteSize func ≤ 512 := by
  unfold sdioMaxByteSize
  dsimp only
  split_ifs <;> omega

/-! ### The loops -/

/-- How a call ends: with a result and the commands that it issued, in a division by zero, or not
with the fuel that it had. -/
inductive Outcome
  | ret (r : ℤ) (cmds : List Cmd53)
  | divByZero
  | running

section Loops

variable (func : SdioFunc) (write incrAddr : Bool) (res : ℕ → CmdResult)

/-- The address after `size` bytes. -/
def nextAddr (addr size : ℕ) : ℕ := if incrAddr then wrapAdd 32 addr size else addr

/-- The loop in byte mode, with the commands issued so far. -/
def byteLoop : ℕ → ℕ → ℕ → ℕ → List Cmd53 → Outcome
  | 0, _, _, _, _ => .running
  | fuel + 1, remainder, addr, buf, cmds =>
    if 0 < remainder then
      let size := min remainder (sdioMaxByteSize func)
      let done := mmcIoRwExtended func.card.host write func.num addr incrAddr buf 0 size
        (res cmds.length)
      let cmds := cmds ++ done.2.toList
      if done.1 ≠ 0 then .ret done.1 cmds
      else byteLoop fuel (remainder - size) (nextAddr incrAddr addr size) (buf + size) cmds
    else .ret 0 cmds

/-- The number of blocks of the next command in block mode. -/
def commandBlocks (remainder : ℕ) : ℕ :=
  let maxBlocks := min func.card.host.maxBlkCount 511
  let blocks := remainder / func.curBlksize
  if maxBlocks < blocks then maxBlocks else blocks

/-- The loop in block mode, and the loop in byte mode behind it. -/
def blockLoop : ℕ → ℕ → ℕ → ℕ → List Cmd53 → Outcome
  | 0, _, _, _, _ => .running
  | fuel + 1, remainder, addr, buf, cmds =>
    if func.curBlksize ≤ remainder then
      if func.curBlksize = 0 then .divByZero
      else
        let blocks := commandBlocks func remainder
        let size := blocks * func.curBlksize
        let done := mmcIoRwExtended func.card.host write func.num addr incrAddr buf blocks
          func.curBlksize (res cmds.length)
        let cmds := cmds ++ done.2.toList
        if done.1 ≠ 0 then .ret done.1 cmds
        else blockLoop fuel (remainder - size) (nextAddr incrAddr addr size) (buf + size) cmds
    else byteLoop func write incrAddr res fuel remainder addr buf cmds

/-- `sdio_io_rw_ext_helper` -/
def sdioIoRwExtHelper (fuel addr size : ℕ) : Outcome :=
  if 7 < func.num then .ret (-einval) []
  else if func.card.multiBlock ∧ sdioMaxByteSize func < size then
    blockLoop func write incrAddr res fuel size addr 0 []
  else byteLoop func write incrAddr res fuel size addr 0 []

end Loops

/-! ### Plain memory access -/

/-- The commands are well formed, and transfer the first `n` bytes of a buffer from offset `buf` on
in their order. -/
structure PlainAccess (func : SdioFunc) (write incrAddr : Bool) (addr buf n : ℕ)
    (cmds : List Cmd53) : Prop where
  wellFormed : ∀ c ∈ cmds, c.WellFormed func.card.host write func.num incrAddr func.curBlksize
  transfers : cmds.flatMap (fun c => c.transfers func.curBlksize) =
    plainTransfers incrAddr addr buf n

/-- The addresses of `n` bytes from `addr` on are addresses of the card. -/
def AddrInRange (incrAddr : Bool) (addr n : ℕ) : Prop :=
  if incrAddr then addr + n ≤ 2 ^ 17 else addr < 2 ^ 17

instance (incrAddr : Bool) (addr n : ℕ) : Decidable (AddrInRange incrAddr addr n) :=
  inferInstanceAs (Decidable (if incrAddr then _ else _))

/-- The request was carried out without an error. -/
def CmdResult.Succeeds (host : SdioHost) (res : CmdResult) : Prop :=
  res.alloc = true ∧ res.ret host = 0

section Access

variable {func : SdioFunc} {write incrAddr : Bool} {res : ℕ → CmdResult} {addr buf n m : ℕ}
  {cmds : List Cmd53}

theorem PlainAccess.nil : PlainAccess func write incrAddr addr buf 0 [] :=
  ⟨List.forall_mem_nil _, rfl⟩

/-- What a loop does from a state on: it ends with commands that transfer a first part of what was
left, and all of it if it returns zero, which it does if all requests succeed. -/
def LoopDoes (func : SdioFunc) (write incrAddr : Bool) (res : ℕ → CmdResult) (addr buf n : ℕ)
    (cmds : List Cmd53) (o : Outcome) : Prop :=
  ∃ r new, o = .ret r (cmds ++ new) ∧
    ∃ k ≤ n, PlainAccess func write incrAddr addr buf k new ∧ (r = 0 → k = n) ∧
      ((∀ i, (res i).Succeeds func.card.host) → r = 0)

theorem PlainAccess.cons {c : Cmd53}
    (hc : c.WellFormed func.card.host write func.num incrAddr func.curBlksize)
    (htransfers : c.transfers func.curBlksize = plainTransfers incrAddr addr buf n)
    (h : PlainAccess func write incrAddr (if incrAddr then addr + n else addr) (buf + n) m cmds) :
    PlainAccess func write incrAddr addr buf (n + m) (c :: cmds) where
  wellFormed := List.forall_mem_cons.mpr ⟨hc, h.wellFormed⟩
  transfers := by rw [List.flatMap_cons, htransfers, h.transfers, plainTransfers_add]

/-- **One step of a loop.** A command of `n` bytes, and a loop that does the rest unless the command
failed, do it all. -/
theorem LoopDoes.step (cmds : List Cmd53) (rest : List Cmd53 → Outcome) {blocks blksz : ℕ}
    (hnum : func.num < 2 ^ 3)
    (hsize : CmdSize func.card.host func.curBlksize blocks blksz n) (haddr : addr < 2 ^ 17)
    (hrest : ∀ cmds, LoopDoes func write incrAddr res (if incrAddr then addr + n else addr)
      (buf + n) m cmds (rest cmds)) :
    LoopDoes func write incrAddr res addr buf (n + m) cmds
      (let done := mmcIoRwExtended func.card.host write func.num addr incrAddr buf blocks blksz
        (res cmds.length)
       if done.1 ≠ 0 then .ret done.1 (cmds ++ done.2.toList) else rest (cmds ++ done.2.toList)) := by
  have hcmds := @mmcIoRwExtended_snd func.card.host write incrAddr func.num addr blocks blksz
    func.curBlksize n buf (res cmds.length) hnum haddr hsize
  rcases mmcIoRwExtended_cases write incrAddr func.num buf blocks blksz (res cmds.length) haddr with
    ⟨c, hdone⟩ | ⟨hdone, halloc⟩
  · rw [hdone] at hcmds ⊢
    obtain ⟨hwf, htransfers⟩ := hcmds c rfl
    dsimp only
    by_cases hfail : (res cmds.length).ret func.card.host ≠ 0
    · rw [if_pos hfail]
      refine ⟨_, [c], rfl, n, Nat.le_add_right n m, ?_, fun hzero => absurd hzero hfail,
        fun hall => absurd (hall _).2 hfail⟩
      exact PlainAccess.nil.cons hwf htransfers
    · rw [if_neg hfail]
      obtain ⟨r, new, hr, k, hk, haccess, hzero, hall⟩ := hrest (cmds ++ [c])
      refine ⟨r, c :: new, by rw [Option.toList_some, hr, List.append_assoc]; rfl, n + k, by omega,
        haccess.cons hwf htransfers, fun h => by rw [hzero h], hall⟩
  · have henomem : -enomem ≠ 0 := by decide
    rw [hdone]
    dsimp only
    rw [if_pos henomem]
    refine ⟨_, [], rfl, 0, Nat.zero_le _, .nil, fun hzero => absurd hzero henomem, fun hall => ?_⟩
    rw [(hall _).1] at halloc
    cases halloc

theorem AddrInRange.lt (h : AddrInRange incrAddr addr n) (hn : 0 < n) : addr < 2 ^ 17 := by
  unfold AddrInRange at h
  split_ifs at h
  · omega
  · exact h

/-- Within the addresses of the card, the address does not wrap. -/
theorem AddrInRange.next (h : AddrInRange incrAddr addr n) (hle : m ≤ n) :
    nextAddr incrAddr addr m = (if incrAddr then addr + m else addr) ∧
      AddrInRange incrAddr (if incrAddr then addr + m else addr) (n - m) := by
  unfold AddrInRange nextAddr at *
  split_ifs at *
  · exact ⟨wrapAdd_of_lt (by omega), by omega⟩
  · exact ⟨rfl, h⟩

theorem LoopDoes.done : LoopDoes func write incrAddr res addr buf 0 cmds (.ret 0 cmds) :=
  ⟨0, [], by rw [List.append_nil], 0, le_rfl, .nil, fun _ => rfl, fun _ => rfl⟩

/-- The loop in byte mode transfers what is left. -/
theorem byteLoop_does (hnum : func.num < 2 ^ 3) (hmax : 0 < sdioMaxByteSize func) {fuel : ℕ}
    (hfuel : n < fuel) (hrange : AddrInRange incrAddr addr n) :
    LoopDoes func write incrAddr res addr buf n cmds
      (byteLoop func write incrAddr res fuel n addr buf cmds) := by
  induction fuel generalizing n addr buf cmds with
  | zero => exact absurd hfuel (Nat.not_lt_zero n)
  | succ fuel ih =>
    rcases Nat.eq_zero_or_pos n with rfl | hn
    · exact LoopDoes.done
    · have hle512 := sdioMaxByteSize_le func
      generalize hsize : min n (sdioMaxByteSize func) = size
      have hpos : 0 < size := by omega
      have hle : size ≤ n := by omega
      obtain ⟨hnext, hrest⟩ := hrange.next hle
      have hstep := LoopDoes.step cmds (byteLoop func write incrAddr res fuel (n - size)
        (nextAddr incrAddr addr size) (buf + size)) hnum (CmdSize.bytes hpos (by omega))
        (hrange.lt hn) fun cmds => by
          rw [hnext]
          exact ih (by omega) hrest
      rw [Nat.add_sub_cancel' hle] at hstep
      rw [byteLoop, if_pos hn, hsize]
      exact hstep

/-- A command in block mode has at least one block, and no more than is left or fits. -/
theorem commandBlocks_bounds (hblk : 0 < func.curBlksize) (hle : func.curBlksize ≤ n) :
    1 ≤ commandBlocks func n ∧ commandBlocks func n ≤ min func.card.host.maxBlkCount 511 ∧
      commandBlocks func n * func.curBlksize ≤ n := by
  have hquot : 1 ≤ n / func.curBlksize := (Nat.le_div_iff_mul_le hblk).mpr (by omega)
  have hmul : n / func.curBlksize * func.curBlksize ≤ n := Nat.div_mul_le_self _ _
  have hcount := func.card.host.one_le_maxBlkCount
  unfold commandBlocks
  dsimp only
  split_ifs with hlimit
  · exact ⟨by omega, le_rfl, (Nat.mul_le_mul_right _ hlimit.le).trans hmul⟩
  · exact ⟨hquot, by omega, hmul⟩

/-- The two loops transfer what is left. -/
theorem blockLoop_does (hnum : func.num < 2 ^ 3) (hmax : 0 < sdioMaxByteSize func)
    (hblk : 0 < func.curBlksize) (hblk' : func.curBlksize ≤ 2048) {fuel : ℕ}
    (hfuel : n + 1 < fuel) (hrange : AddrInRange incrAddr addr n) :
    LoopDoes func write incrAddr res addr buf n cmds
      (blockLoop func write incrAddr res fuel n addr buf cmds) := by
  induction fuel generalizing n addr buf cmds with
  | zero => exact absurd hfuel (Nat.not_lt_zero _)
  | succ fuel ih =>
    rw [blockLoop]
    by_cases hblock : func.curBlksize ≤ n
    · rw [if_pos hblock, if_neg hblk.ne']
      obtain ⟨hone, hlimit, hle⟩ := commandBlocks_bounds hblk hblock
      dsimp only
      generalize commandBlocks func n = blocks at hone hlimit hle
      have hpos : 0 < blocks * func.curBlksize := Nat.mul_pos hone hblk
      obtain ⟨hnext, hrest⟩ := hrange.next hle
      have hstep := LoopDoes.step cmds (blockLoop func write incrAddr res fuel
        (n - blocks * func.curBlksize) (nextAddr incrAddr addr (blocks * func.curBlksize))
        (buf + blocks * func.curBlksize)) hnum (CmdSize.blocks hone hlimit hblk hblk')
        (hrange.lt (by omega)) fun cmds => by
          rw [hnext]
          exact ih (by omega) hrest
      rw [Nat.add_sub_cancel' hle] at hstep
      exact hstep
    · rw [if_neg hblock]
      exact byteLoop_does hnum hmax (by omega) hrange

/-- **Plain memory access.** A transfer ends, and its commands transfer a first part of the buffer
once and in order, to consecutive addresses or all to the same one. It is all of the buffer if the
call returns zero, and the call returns zero if every request succeeds. -/
theorem sdioIoRwExtHelper_plainAccess (func : SdioFunc) (write incrAddr : Bool)
    (res : ℕ → CmdResult) (addr size : ℕ) (hnum : func.num ≤ 7) (hblk : 0 < func.curBlksize)
    (hblk' : func.curBlksize ≤ 2048) (hmax : 0 < sdioMaxByteSize func)
    (hrange : AddrInRange incrAddr addr size) (fuel : ℕ) (hfuel : size + 1 < fuel) :
    ∃ r cmds k, sdioIoRwExtHelper func write incrAddr res fuel addr size = .ret r cmds ∧
      k ≤ size ∧ PlainAccess func write incrAddr addr 0 k cmds ∧ (r = 0 → k = size) ∧
      ((∀ i, (res i).Succeeds func.card.host) → r = 0) := by
  have hdoes : LoopDoes func write incrAddr res addr 0 size []
      (sdioIoRwExtHelper func write incrAddr res fuel addr size) := by
    rw [sdioIoRwExtHelper, if_neg (Nat.not_lt.mpr hnum)]
    split_ifs
    · exact blockLoop_does (Nat.lt_succ_of_le hnum) hmax hblk hblk' hfuel hrange
    · exact byteLoop_does (Nat.lt_succ_of_le hnum) hmax (by omega) hrange
  obtain ⟨r, cmds, hr, k, hk, haccess, hzero, hall⟩ := hdoes
  exact ⟨r, cmds, k, hr, hk, haccess, hzero, hall⟩

end Access

/-- A host of 512 bytes for a block, and scatter lists of pages. -/
def pageHost : SdioHost := ⟨512, 8, 4096, false, by decide, by decide, by decide, by decide⟩

/-- Ten bytes in blocks of four: two blocks, and two bytes. -/
theorem sdioIoRwExtHelper_plainAccess_sample :
    ∃ r cmds k, sdioIoRwExtHelper ⟨⟨pageHost, true, false, false⟩, 1, 4, 4⟩ true true
        (fun _ => ⟨true, 0, 0, 0⟩) 12 0x100 10 = .ret r cmds ∧ k ≤ 10 ∧
      PlainAccess ⟨⟨pageHost, true, false, false⟩, 1, 4, 4⟩ true true 0x100 0 k cmds ∧
      (r = 0 → k = 10) ∧
      ((∀ _ : ℕ, CmdResult.Succeeds pageHost ⟨true, 0, 0, 0⟩) → r = 0) :=
  sdioIoRwExtHelper_plainAccess ⟨⟨pageHost, true, false, false⟩, 1, 4, 4⟩ true true
    (fun _ => ⟨true, 0, 0, 0⟩) 0x100 10 (by decide) (by decide) (by decide) (by decide) (by decide)
    12 (by decide)

end LinuxDriver.Sdio
