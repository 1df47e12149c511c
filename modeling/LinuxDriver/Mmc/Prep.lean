import LinuxDriver.Kernel
import LinuxDriver.MachineInt

/-!
# Preparing the transfers of the MMC block driver

`mmc_blk_data_prep` decides how many sectors of a request one transfer moves and cuts the scatter
list down to it, and `mmc_blk_rw_rq_prep` builds the command from that. With `disable_multi` set
every transfer is of one sector, as the recovery from a read error needs it.

The host comes with its documented bounds: it moves at least one block, and the `multi_io_quirk`
of a controller chooses a number of blocks between one and what it was asked for (`MultiIoQuirk`;
the two quirks of the host drivers are instances).

## Main definitions

* `Request`, `Host`, `Card`, `BlkData`, `Queue`.
* `mmcBlkDataPrep`, `mmcBlkRwRqPrep`.
* `Card.sectorArg`: the command argument that addresses a sector.

## Main results

* `mmcBlkRwRqPrep_single`: with `disable_multi` a read request becomes a single-block read of its
  first sector.
* `sectorArg_inj`: sectors less than `2 ^ 23` apart have different arguments.
-/

namespace LinuxDriver.Mmc

/-! ### Requests and queues -/

/-- What is left of a request of the block layer: its first sector, its number of sectors, its
direction, and the flags `REQ_FUA` and `REQ_META`. The block layer counts the bytes of a request in
32 bits. -/
structure Request where
  pos : ℕ
  sectors : ℕ
  dir : DataDir
  reqFua : Bool
  reqMeta : Bool
  sectors_lt : sectors < 2 ^ 23

/-- The request without its first `n` sectors. -/
def Request.advance (req : Request) (n : ℕ) : Request where
  pos := req.pos + n
  sectors := req.sectors - n
  dir := req.dir
  reqFua := req.reqFua
  reqMeta := req.reqMeta
  sectors_lt := (Nat.sub_le _ _).trans_lt req.sectors_lt

@[simp] theorem Request.advance_pos (req : Request) (n : ℕ) : (req.advance n).pos = req.pos + n :=
  rfl

@[simp] theorem Request.advance_sectors (req : Request) (n : ℕ) :
    (req.advance n).sectors = req.sectors - n := rfl

/-- A `multi_io_quirk` of a host driver. -/
structure MultiIoQuirk where
  blocks : DataDir → ℕ → ℕ
  bounds : ∀ dir n, 1 ≤ n → 1 ≤ blocks dir n ∧ blocks dir n ≤ n

/-- `omap_hsmmc_multi_io_quirk` -/
def omapHsmmcMultiIoQuirk : MultiIoQuirk where
  blocks dir n := if dir = .read then 1 else n
  bounds dir n hn := by cases dir <;> simp [hn]

/-- `renesas_sdhi_multi_io_quirk` -/
def renesasSdhiMultiIoQuirk : MultiIoQuirk where
  blocks dir n := if dir = .read ∧ n = 2 then 1 else n
  bounds dir n hn := by split <;> omega

/-- A host controller, as far as the block driver asks for it. -/
structure Host where
  spi : Bool
  maxBlkCount : ℕ
  multiIoQuirk : Option MultiIoQuirk
  one_le_maxBlkCount : 1 ≤ maxBlkCount

/-- A card. `relParamEn` is the bit `EXT_CSD_WR_REL_PARAM_EN` of `rel_param`, and `noCmd23` the
quirk `MMC_QUIRK_BLK_NO_CMD23`. -/
structure Card where
  blockaddr : Bool
  relParamEn : Bool
  relSectors : ℕ
  dataTagUnitSize : ℕ
  noCmd23 : Bool

/-- The flags `MMC_BLK_REL_WR` and `MMC_BLK_CMD23` of a `mmc_blk_data`, and the capacity of its
disk in sectors. -/
structure BlkData where
  relWr : Bool
  cmd23 : Bool
  capacity : ℕ

structure Queue where
  host : Host
  card : Card
  blkdata : BlkData

/-! ### The data of a transfer -/

/-- `mmc_data`: the flags, the first sector, the number of blocks of 512 bytes, and the lengths of
the entries of the scatter list. -/
structure Data where
  dir : DataDir
  relWr : Bool
  datTag : Bool
  blkAddr : ℕ
  blocks : ℕ
  sg : List ℕ

/-- `mmc_apply_rel_rw`: the number of blocks of a reliable write. The alignment test is a mask. -/
def mmcApplyRelRw (card : Card) (req : Request) (blocks : ℕ) : ℕ :=
  if card.relParamEn then blocks
  else
    let blocks := if req.pos &&& wrapSub 64 card.relSectors 1 ≠ 0 then 1 else blocks
    if card.relSectors < blocks then card.relSectors
    else if blocks < card.relSectors then 1
    else blocks

/-- The number of blocks that `mmc_blk_data_prep` chooses before it looks at reliable writes. -/
def transferBlocks (mq : Queue) (req : Request) (disableMulti : Bool) : ℕ :=
  let blocks :=
    if mq.host.maxBlkCount < req.sectors then mq.host.maxBlkCount else req.sectors
  if 1 < blocks then
    let blocks :=
      if mq.host.spi ∧ req.dir = .read ∧
          wrapAdd 64 req.pos req.sectors = mq.blkdata.capacity then
        blocks - 1
      else blocks
    let blocks := if disableMulti then 1 else blocks
    match mq.host.multiIoQuirk with
    | some quirk => quirk.blocks req.dir blocks
    | none => blocks
  else blocks

/-- The loop that adjusts the scatter list, with the value of `data_size` before an entry. The
entries that it keeps are the first `sg_len`. -/
def adjustSg : ℤ → List ℕ → List ℕ
  | _, [] => []
  | dataSize, len :: sg =>
    let dataSize := (dataSize - len).bmod (2 ^ 32)
    if dataSize ≤ 0 then [((len + dataSize) % 2 ^ 32).toNat]
    else len :: adjustSg dataSize sg

/-- `mmc_blk_data_prep`, with the scatter list of the whole request: the data of the transfer,
`do_rel_wr` and `do_data_tag`. -/
def mmcBlkDataPrep (mq : Queue) (req : Request) (sg : List ℕ) (disableMulti : Bool) :
    Data × Bool × Bool :=
  let doRelWr := req.reqFua && req.dir = .write && mq.blkdata.relWr
  let blocks := transferBlocks mq req disableMulti
  let blocks := if doRelWr then mmcApplyRelRw mq.card req blocks else blocks
  let doDataTag := mq.card.dataTagUnitSize ≠ 0 && req.reqMeta && req.dir = .write &&
    mq.card.dataTagUnitSize ≤ blocks * 512 % 2 ^ 32
  let sg := if blocks ≠ req.sectors then adjustSg (toCInt (blocks * 512)) sg else sg
  (⟨req.dir, doRelWr, doDataTag, req.pos % 2 ^ 32, blocks, sg⟩, doRelWr, doDataTag)

/-! ### The commands -/

inductive Opcode
  | stopTransmission
  | readSingleBlock
  | readMultipleBlock
  | setBlockCount
  | writeBlock
  | writeMultipleBlock
  deriving DecidableEq

/-- `mmc_op_multi` -/
def mmcOpMulti (op : Opcode) : Bool := op = .writeMultipleBlock || op = .readMultipleBlock

structure Command where
  opcode : Opcode
  arg : ℕ

/-- `mmc_blk_request`: the command, its data, and the commands before and after it, if any. -/
structure BlkRequest where
  cmd : Command
  data : Data
  stop : Option Command
  sbc : Option Command

/-- `mmc_blk_rw_rq_prep` -/
def mmcBlkRwRqPrep (mq : Queue) (req : Request) (sg : List ℕ) (disableMulti : Bool) :
    BlkRequest :=
  let prep := mmcBlkDataPrep mq req sg disableMulti
  let data := prep.1
  let doRelWr := prep.2.1
  let doDataTag := prep.2.2
  let arg := req.pos % 2 ^ 32
  let arg := if mq.card.blockaddr then arg else (arg <<< 9) % 2 ^ 32
  let multi := 1 < data.blocks || doRelWr
  let stop :=
    if multi && (!mq.host.spi || req.dir = .read) then some ⟨.stopTransmission, 0⟩ else none
  let readcmd : Opcode := if multi then .readMultipleBlock else .readSingleBlock
  let writecmd : Opcode := if multi then .writeMultipleBlock else .writeBlock
  let opcode := if req.dir = .read then readcmd else writecmd
  let sbc :=
    if mq.blkdata.cmd23 && mmcOpMulti opcode && (doRelWr || !mq.card.noCmd23 || doDataTag) then
      some ⟨.setBlockCount, data.blocks ||| (if doRelWr then 2 ^ 31 else 0) |||
        (if doDataTag then 2 ^ 29 else 0)⟩
    else none
  ⟨⟨opcode, arg⟩, data, stop, sbc⟩

/-! ### Reads of one sector -/

/-- The 32-bit command argument that addresses a sector of the card. -/
def Card.sectorArg (card : Card) (s : ℕ) : ℕ :=
  if card.blockaddr then s % 2 ^ 32 else s * 512 % 2 ^ 32

/-- The transfer is a single-block read of sector `s`. -/
def BlkRequest.ReadsSector (card : Card) (brq : BlkRequest) (s : ℕ) : Prop :=
  brq.cmd.opcode = .readSingleBlock ∧ brq.cmd.arg = card.sectorArg s

instance (card : Card) (brq : BlkRequest) (s : ℕ) : Decidable (brq.ReadsSector card s) :=
  inferInstanceAs (Decidable (_ ∧ _))

/-- Different sectors less than `2 ^ 23` apart have different arguments, also on a card that is
addressed in bytes. -/
theorem sectorArg_inj (card : Card) {s t : ℕ} (hst : s < t) (ht : t < s + 2 ^ 23) :
    card.sectorArg s ≠ card.sectorArg t := by
  unfold Card.sectorArg
  split <;> omega

theorem transferBlocks_single (mq : Queue) {req : Request} (hpos : 0 < req.sectors) :
    transferBlocks mq req true = 1 := by
  have hmax := mq.host.one_le_maxBlkCount
  simp only [transferBlocks, if_true]
  generalize hn : (if mq.host.maxBlkCount < req.sectors then mq.host.maxBlkCount
    else req.sectors) = n
  have hone : 1 ≤ n := by
    rw [← hn]
    split <;> omega
  by_cases hmulti : 1 < n
  · rw [if_pos hmulti]
    cases mq.host.multiIoQuirk with
    | none => rfl
    | some quirk =>
      have hbounds := quirk.bounds req.dir 1 le_rfl
      exact le_antisymm hbounds.2 hbounds.1
  · rw [if_neg hmulti]
    omega

/-- **One sector at a time.** With `disable_multi`, `mmc_blk_rw_rq_prep` turns a read request into a
single-block read of its first sector, with one block of data and no command before or after it. -/
theorem mmcBlkRwRqPrep_single (mq : Queue) {req : Request} (sg : List ℕ) (hread : req.dir = .read)
    (hpos : 0 < req.sectors) :
    (mmcBlkRwRqPrep mq req sg true).ReadsSector mq.card req.pos ∧
    (mmcBlkRwRqPrep mq req sg true).data.blocks = 1 ∧
    (mmcBlkRwRqPrep mq req sg true).stop = none ∧ (mmcBlkRwRqPrep mq req sg true).sbc = none := by
  have hblocks := transferBlocks_single mq hpos
  have harg : (if mq.card.blockaddr = true then req.pos % 2 ^ 32
      else (req.pos % 2 ^ 32) <<< 9 % 2 ^ 32) = mq.card.sectorArg req.pos := by
    unfold Card.sectorArg
    split
    · rfl
    · rw [Nat.shiftLeft_eq]
      omega
  have hopcode : (mmcBlkRwRqPrep mq req sg true).cmd.opcode = .readSingleBlock := by
    simp [mmcBlkRwRqPrep, mmcBlkDataPrep, hblocks, hread]
  refine ⟨⟨hopcode, harg⟩, ?_, ?_, ?_⟩ <;>
    simp [mmcBlkRwRqPrep, mmcBlkDataPrep, hblocks, hread, mmcOpMulti]

end LinuxDriver.Mmc
