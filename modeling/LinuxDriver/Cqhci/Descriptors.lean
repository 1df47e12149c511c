import LinuxDriver.BitField
import LinuxDriver.Buffer
import LinuxDriver.LittleEndian
import LinuxDriver.Cqhci.Host
import LinuxDriver.ScatterGather

/-!
# The descriptors of the command queue

The engine finds a task in the slot of its tag: a task descriptor, and behind it a link to a list of
transfer descriptors, the last of which has an end mark. The links are set up once. A request writes
its task descriptor and its list; a direct command writes its task descriptor only.

The lists of the tags lie one behind the other in an area that is allocated for one list less than
there are slots, since a host with direct commands needs no list for the last one. Without direct
commands the last slot takes data as well, and its list lies behind the area.

## Main definitions

* `TdlHost`, `Segment`, `TaskReq`, `Dcmd`: the layout, a mapped segment, and requests.
* `cqhciHostAllocTdl`, `cqhciPrepTaskDesc`, `cqhciPrepTranDesc`, `cqhciPrepDcmdDesc`.
* `engineList`, `engineTask`: what the engine reads.
* `TdlOp`, `runTdl`: requests one after another.

## Main results

* `engineList_prepTranDesc`: the engine reads the list that was written.
* `engine_reads_last`: the engine finds in each slot, the last one apart, its last request.
* `lists_inside_iff`: the lists are inside the area exactly if the host has direct commands.
-/

namespace LinuxDriver.Cqhci

/-! ### The layout -/

/-- The fields of `struct cqhci_host` about the descriptors, with the two areas by their addresses
on the bus. -/
structure TdlHost where
  dma64 : Bool
  shortTxfrDesc : Bool
  taskDesc128 : Bool
  dcmd : Bool
  maxSegs : ℕ
  descBase : ℕ
  transDescBase : ℕ

namespace TdlHost

variable (h : TdlHost)

def taskDescLen : ℕ := if h.taskDesc128 then 16 else 8

def transDescLen : ℕ := if h.dma64 then if h.shortTxfrDesc then 12 else 16 else 8

def linkDescLen : ℕ := if h.dma64 then 16 else 8

def slotSz : ℕ := h.taskDescLen + h.linkDescLen

def descSize : ℕ := h.slotSz * 32

def dataSize : ℕ := h.transDescLen * h.maxSegs * 31

/-- `mmc->cqe_qdepth` -/
def cqeQdepth : ℕ := if h.dcmd then 31 else 32

/-- The bytes of an address in a descriptor. -/
def addrBytes : ℕ := if h.dma64 then 8 else 4

/-- `get_desc` -/
def getDesc (tag : Tag) : ℕ := h.descBase + tag.val * h.slotSz

/-- `get_link_desc` -/
def getLinkDesc (tag : Tag) : ℕ := h.getDesc tag + h.taskDescLen

/-- `get_trans_desc`, and `get_trans_desc_dma`. -/
def getTransDesc (tag : Tag) : ℕ := h.transDescBase + h.transDescLen * h.maxSegs * tag.val

end TdlHost

/-! ### What the driver writes -/

/-- A segment of a request after `dma_map_sg`. -/
structure Segment where
  addr : ℕ
  len : ℕ

namespace Segment

/-- What the engine can move with one descriptor. -/
structure Fits (sg : Segment) (h : TdlHost) : Prop where
  addr_lt : sg.addr < 2 ^ (8 * h.addrBytes)
  len_pos : 0 < sg.len
  len_le : sg.len ≤ 65536

/-- The bytes of the segment. -/
def region (sg : Segment) : Region := ⟨sg.addr, sg.len⟩

end Segment

/-- What `cqhci_prep_task_desc` reads of `struct mmc_data`. -/
structure TaskReq where
  forcedPrg : Bool
  datTag : Bool
  read : Bool
  prio : Bool
  qbr : Bool
  relWr : Bool
  blocks : ℕ
  blkAddr : ℕ
  deriving DecidableEq

/-- What `cqhci_prep_dcmd_desc` reads of `struct mmc_command`. -/
structure Dcmd where
  opcode : ℕ
  arg : BitVec 32
  flags : ℕ

/-- `cqhci_prep_task_desc`, by the attribute and the descriptor fields. -/
def cqhciPrepTaskDesc (req : TaskReq) (intr : Bool) : ℕ :=
  bits 1 0 1 ||| bits 1 1 1 ||| bits 1 2 intr.toNat ||| bits 3 3 5 |||
    bits 1 6 req.forcedPrg.toNat ||| bits 1 11 req.datTag.toNat ||| bits 1 12 req.read.toNat |||
    bits 1 13 req.prio.toNat ||| bits 1 14 req.qbr.toNat ||| bits 1 15 req.relWr.toNat |||
    bits 16 16 req.blocks ||| bits 32 32 req.blkAddr

/-- `MMC_RSP_PRESENT` and `MMC_RSP_R1B`. -/
def mmcRspPresent : ℕ := 0x1

def mmcRspR1b : ℕ := 0x1d

/-- `resp_type` and `timing` of `cqhci_prep_dcmd_desc`. -/
def dcmdResponse (flags : ℕ) : ℕ × ℕ :=
  if flags &&& mmcRspPresent = 0 then (0, 1)
  else if flags &&& mmcRspR1b ≠ 0 then (3, 0)
  else (2, 1)

/-- The `data` of `cqhci_prep_dcmd_desc`. -/
def dcmdWord (cmd : Dcmd) : ℕ :=
  bits 1 0 1 ||| bits 1 1 1 ||| bits 1 2 1 ||| bits 3 3 5 ||| bits 1 14 1 |||
    bits 6 16 cmd.opcode ||| bits 1 22 (dcmdResponse cmd.flags).2 |||
    bits 2 23 (dcmdResponse cmd.flags).1

/-- The attribute word of `cqhci_set_tran_desc`. -/
def tranAttr (len : ℕ) (last : Bool) : ℕ :=
  bits 1 0 1 ||| bits 1 1 last.toNat ||| bits 1 2 0 ||| bits 3 3 4 ||| bits 16 16 len

section Writes

variable (h : TdlHost)

/-- `cqhci_set_tran_desc` -/
def cqhciSetTranDesc (m : Buffer UInt8) (desc : ℕ) (sg : Segment) (last : Bool) : Buffer UInt8 :=
  (m.store desc (leBytes 4 (tranAttr sg.len last))).store (desc + 4) (leBytes h.addrBytes sg.addr)

/-- The loop of `cqhci_prep_tran_desc`. -/
def prepTranDesc : Buffer UInt8 → ℕ → List Segment → Buffer UInt8
  | m, _, [] => m
  | m, desc, sg :: sgs =>
    prepTranDesc (cqhciSetTranDesc h m desc sg sgs.isEmpty) (desc + h.transDescLen) sgs

/-- The descriptors that `cqhci_request` writes for a request with data. -/
def cqhciPrepTranDesc (m : Buffer UInt8) (tag : Tag) (req : TaskReq) (sgs : List Segment) :
    Buffer UInt8 :=
  prepTranDesc h (m.store (h.getDesc tag) (leBytes 8 (cqhciPrepTaskDesc req true)))
    (h.getTransDesc tag) sgs

/-- `cqhci_prep_dcmd_desc` -/
def cqhciPrepDcmdDesc (m : Buffer UInt8) (cmd : Dcmd) : Buffer UInt8 :=
  let desc := h.getDesc dcmdSlot
  ((m.store desc (List.replicate h.taskDescLen 0)).store desc (leBytes 8 (dcmdWord cmd))).store
    (desc + 4) (leBytes 8 cmd.arg.toNat)

/-- `setup_trans_desc` -/
def setupTransDesc (m : Buffer UInt8) (tag : Tag) : Buffer UInt8 :=
  let link := h.getLinkDesc tag
  let cleared := m.store link (List.replicate h.linkDescLen 0)
  if tag = dcmdSlot ∧ h.dcmd then cleared.store link [UInt8.ofNat (bits 1 0 0 ||| bits 1 1 1)]
  else
    (cleared.store link [UInt8.ofNat (bits 1 0 1 ||| bits 3 3 6 ||| bits 1 1 0)]).store (link + 4)
      (leBytes h.addrBytes (h.getTransDesc tag))

/-- The set-up of the links in `cqhci_host_alloc_tdl`. -/
def cqhciHostAllocTdl (m : Buffer UInt8) : Buffer UInt8 :=
  (List.finRange 32).foldl (setupTransDesc h) m

end Writes

/-! ### What the engine reads -/

section Engine

variable (h : TdlHost)

/-- The regions of a list of transfer descriptors, up to the end mark. A descriptor that is not
valid or does not transfer is an error, and so is a list of more than `n`; a length of zero stands
for 65536. -/
def engineList (m : Buffer UInt8) : ℕ → ℕ → Option (List Region)
  | 0, _ => none
  | n + 1, desc =>
    let attr := leWord (m.load desc 4)
    let len := attr / 2 ^ 16
    let here : Region :=
      ⟨leWord (m.load (desc + 4) h.addrBytes), if len = 0 then 65536 else len⟩
    if attr % 2 = 0 ∨ attr / 8 % 8 ≠ 4 then none
    else if attr / 2 % 2 = 1 then some [here]
    else (engineList m n (desc + h.transDescLen)).map (here :: ·)

/-- The address in the link of a slot, if it is valid. -/
def linkTarget (m : Buffer UInt8) (tag : Tag) : Option ℕ :=
  let attr := leWord (m.load (h.getLinkDesc tag) 4)
  if attr % 2 = 0 ∨ attr / 8 % 8 ≠ 6 then none
  else some (leWord (m.load (h.getLinkDesc tag + 4) h.addrBytes))

/-- The task descriptor of a slot. -/
def taskWord (m : Buffer UInt8) (tag : Tag) : ℕ := leWord (m.load (h.getDesc tag) 8)

/-- A task with data: its task descriptor, and what the list behind the link describes. -/
def engineTask (m : Buffer UInt8) (tag : Tag) : Option (ℕ × List Region) :=
  (linkTarget h m tag).bind fun desc =>
    (engineList h m h.maxSegs desc).map fun regions => (taskWord h m tag, regions)

end Engine

/-! ### One list -/

variable {h : TdlHost}

theorem four_add_addrBytes_le (h : TdlHost) : 4 + h.addrBytes ≤ h.transDescLen := by
  unfold TdlHost.addrBytes TdlHost.transDescLen
  split_ifs <;> omega

/-- The first bytes of a word that was stored. -/
theorem leWord_load_store (m : Buffer UInt8) (off n : ℕ) {k w : ℕ} (hkw : k ≤ w) :
    leWord ((m.store off (leBytes w n)).load off k) = n % 2 ^ (8 * k) := by
  rw [Buffer.load_store_take _ _ (by rwa [length_leBytes]), take_leBytes hkw, leWord_leBytes]

theorem tranAttr_eq (len : ℕ) (last : Bool) :
    tranAttr len last = 33 + 2 * last.toNat + 65536 * (len % 65536) := by
  have hfields : tranAttr len last =
      orFields 0 0 [(1, 1), (1, last.toNat), (1, 0), (3, 4), (10, 0), (16, len)] := by
    simp [tranAttr, orFields]
  have hlast : last.toNat % 2 = last.toNat := Nat.mod_eq_of_lt (by cases last <;> decide)
  rw [hfields, orFields_zero]
  simp only [packFields, Nat.reducePow, hlast]
  omega

/-- A descriptor changes its own bytes only. -/
theorem cqhciSetTranDesc_apply_of_notMem (m : Buffer UInt8) {desc x : ℕ} (sg : Segment)
    (last : Bool) (hx : x < desc ∨ desc + h.transDescLen ≤ x) :
    cqhciSetTranDesc h m desc sg last x = m x := by
  have hlen := four_add_addrBytes_le h
  unfold cqhciSetTranDesc
  rcases hx with hx | hx
  · rw [Buffer.store_apply_of_lt _ _ (by omega), Buffer.store_apply_of_lt _ _ hx]
  · rw [Buffer.store_apply_of_le _ _ (by rw [length_leBytes]; omega),
      Buffer.store_apply_of_le _ _ (by rw [length_leBytes]; omega)]

theorem attr_cqhciSetTranDesc (m : Buffer UInt8) (desc : ℕ) (sg : Segment) (last : Bool) :
    leWord ((cqhciSetTranDesc h m desc sg last).load desc 4) = tranAttr sg.len last := by
  have hlt : tranAttr sg.len last < 2 ^ (8 * 4) := by
    rw [tranAttr_eq]
    have := Nat.mod_lt sg.len (Nat.succ_pos 65535)
    cases last <;> simp <;> omega
  rw [cqhciSetTranDesc, Buffer.load_store_of_disjoint _ _ (.inl le_rfl),
    leWord_load_store _ _ _ le_rfl, Nat.mod_eq_of_lt hlt]

theorem addr_cqhciSetTranDesc (m : Buffer UInt8) (desc : ℕ) {sg : Segment} (hsg : sg.Fits h)
    (last : Bool) :
    leWord ((cqhciSetTranDesc h m desc sg last).load (desc + 4) h.addrBytes) = sg.addr := by
  rw [cqhciSetTranDesc, leWord_load_store _ _ _ le_rfl, Nat.mod_eq_of_lt hsg.addr_lt]

/-- A list changes the bytes of its descriptors only. -/
theorem prepTranDesc_apply_of_notMem {sgs : List Segment} (m : Buffer UInt8) {desc x : ℕ}
    (hx : x < desc ∨ desc + h.transDescLen * sgs.length ≤ x) :
    prepTranDesc h m desc sgs x = m x := by
  induction sgs generalizing m desc with
  | nil => rfl
  | cons sg sgs ih =>
    rw [List.length_cons, Nat.mul_succ] at hx
    rw [prepTranDesc, ih _ (by omega), cqhciSetTranDesc_apply_of_notMem _ _ _ (by omega)]

/-- The engine looks at the bytes of at most `n` descriptors. -/
theorem engineList_congr {m m' : Buffer UInt8} {n desc : ℕ}
    (hm : ∀ x, desc ≤ x → x < desc + h.transDescLen * n → m x = m' x) :
    engineList h m n desc = engineList h m' n desc := by
  induction n generalizing desc with
  | zero => rfl
  | succ n ih =>
    have hlen := four_add_addrBytes_le h
    rw [Nat.mul_succ] at hm
    have hattr : m.load desc 4 = m'.load desc 4 :=
      Buffer.load_congr fun i hi => hm _ (by omega) (by omega)
    have haddr : m.load (desc + 4) h.addrBytes = m'.load (desc + 4) h.addrBytes :=
      Buffer.load_congr fun i hi => hm _ (by omega) (by omega)
    have hrest : engineList h m n (desc + h.transDescLen) =
        engineList h m' n (desc + h.transDescLen) :=
      ih fun x hx hx' => hm x (by omega) (by omega)
    rw [engineList, engineList, hattr, haddr, hrest]

/-- The first descriptor of a list that was written. -/
theorem load_prepTranDesc_cons (m : Buffer UInt8) (desc : ℕ) (sg : Segment) (sgs : List Segment)
    {off n : ℕ} (hn : off + n ≤ h.transDescLen) :
    (prepTranDesc h m desc (sg :: sgs)).load (desc + off) n =
      (cqhciSetTranDesc h m desc sg sgs.isEmpty).load (desc + off) n := by
  refine Buffer.load_congr fun i hi => ?_
  rw [prepTranDesc, prepTranDesc_apply_of_notMem _ (.inl (by omega))]

/-- **One list.** The engine reads the segments that the list was made of. -/
theorem engineList_prepTranDesc {sgs : List Segment} (m : Buffer UInt8) (desc : ℕ) {n : ℕ}
    (hne : sgs ≠ []) (hn : sgs.length ≤ n) (hfits : ∀ sg ∈ sgs, sg.Fits h) :
    engineList h (prepTranDesc h m desc sgs) n desc = some (sgs.map Segment.region) := by
  induction sgs generalizing m desc n with
  | nil => exact absurd rfl hne
  | cons sg sgs ih =>
    obtain ⟨k, rfl⟩ : ∃ k, n = k + 1 := ⟨n - 1, by simp at hn; omega⟩
    have hsg : sg.Fits h := hfits sg List.mem_cons_self
    have hlen := four_add_addrBytes_le h
    have hattr : leWord ((prepTranDesc h m desc (sg :: sgs)).load desc 4) =
        33 + 2 * sgs.isEmpty.toNat + 65536 * (sg.len % 65536) := by
      have hload := load_prepTranDesc_cons m desc sg sgs
        (Nat.le_of_add_right_le hlen : 0 + 4 ≤ h.transDescLen)
      rw [Nat.add_zero] at hload
      rw [hload, attr_cqhciSetTranDesc, tranAttr_eq]
    have haddr : leWord ((prepTranDesc h m desc (sg :: sgs)).load (desc + 4) h.addrBytes) =
        sg.addr := by
      rw [load_prepTranDesc_cons m desc sg sgs hlen, addr_cqhciSetTranDesc m desc hsg]
    have hlast : sgs.isEmpty.toNat < 2 := by cases sgs.isEmpty <;> decide
    have hsize : (if sg.len % 65536 = 0 then 65536 else sg.len % 65536) = sg.len := by
      have := hsg.len_pos
      have := hsg.len_le
      split_ifs <;> omega
    have hdiv : (33 + 2 * sgs.isEmpty.toNat + 65536 * (sg.len % 65536)) / 2 ^ 16 =
        sg.len % 65536 := by omega
    have hact : ¬((33 + 2 * sgs.isEmpty.toNat + 65536 * (sg.len % 65536)) % 2 = 0 ∨
        (33 + 2 * sgs.isEmpty.toNat + 65536 * (sg.len % 65536)) / 8 % 8 ≠ 4) := by omega
    rw [engineList, hattr, haddr, hdiv, hsize, if_neg hact]
    cases sgs with
    | nil =>
      rw [if_pos (by simp; omega)]
      rfl
    | cons sg' sgs =>
      rw [if_neg (by simp; omega), prepTranDesc, ih _ _ (List.cons_ne_nil _ _) (by simpa using hn)
        fun s hs => hfits s (List.mem_cons_of_mem _ hs)]
      rfl

/-! ### The slots -/

/-- The two areas are apart, the second one can be addressed, and there is room for a segment. -/
structure TdlHost.Placed (h : TdlHost) : Prop where
  apart : h.descBase + h.descSize ≤ h.transDescBase ∨ h.transDescBase + h.dataSize ≤ h.descBase
  fits : h.transDescBase + h.dataSize ≤ 2 ^ (8 * h.addrBytes)
  maxSegs_pos : 0 < h.maxSegs

theorem le_taskDescLen (h : TdlHost) : 8 ≤ h.taskDescLen := by
  unfold TdlHost.taskDescLen
  split_ifs <;> omega

theorem four_add_addrBytes_le_link (h : TdlHost) : 4 + h.addrBytes ≤ h.linkDescLen := by
  unfold TdlHost.addrBytes TdlHost.linkDescLen
  split_ifs <;> omega

/-- A slot lies in the area of the slots. -/
theorem slot_inside (h : TdlHost) (tag : Tag) :
    h.descBase ≤ h.getDesc tag ∧ h.getDesc tag + h.slotSz ≤ h.descBase + h.descSize := by
  have hle : (tag.val + 1) * h.slotSz ≤ 32 * h.slotSz := Nat.mul_le_mul_right _ tag.isLt
  rw [Nat.succ_mul] at hle
  unfold TdlHost.getDesc TdlHost.descSize
  omega

/-- The slots of two tags are apart. -/
theorem slots_apart {tag tag' : Tag} (hne : tag ≠ tag') :
    h.getDesc tag + h.slotSz ≤ h.getDesc tag' ∨ h.getDesc tag' + h.slotSz ≤ h.getDesc tag := by
  unfold TdlHost.getDesc
  rcases Nat.lt_or_gt_of_ne (fun heq => hne (Fin.ext heq)) with hlt | hlt
  · have := Nat.mul_le_mul_right h.slotSz hlt
    rw [Nat.succ_mul] at this
    omega
  · have := Nat.mul_le_mul_right h.slotSz hlt
    rw [Nat.succ_mul] at this
    omega

/-- The list of a tag other than the last one lies in the area of the lists. -/
theorem list_inside {tag : Tag} (htag : tag ≠ dcmdSlot) :
    h.transDescBase ≤ h.getTransDesc tag ∧
      h.getTransDesc tag + h.transDescLen * h.maxSegs ≤ h.transDescBase + h.dataSize := by
  have hlt : tag.val < 31 := by
    have hne : tag.val ≠ 31 := fun heq => htag (Fin.ext heq)
    omega
  have hle := Nat.mul_le_mul_left (h.transDescLen * h.maxSegs) hlt
  rw [Nat.mul_succ] at hle
  unfold TdlHost.getTransDesc TdlHost.dataSize
  omega

theorem lists_apart {tag tag' : Tag} (hne : tag ≠ tag') :
    h.getTransDesc tag + h.transDescLen * h.maxSegs ≤ h.getTransDesc tag' ∨
      h.getTransDesc tag' + h.transDescLen * h.maxSegs ≤ h.getTransDesc tag := by
  unfold TdlHost.getTransDesc
  rcases Nat.lt_or_gt_of_ne (fun heq => hne (Fin.ext heq)) with hlt | hlt
  · have := Nat.mul_le_mul_left (h.transDescLen * h.maxSegs) hlt
    rw [Nat.mul_succ] at this
    omega
  · have := Nat.mul_le_mul_left (h.transDescLen * h.maxSegs) hlt
    rw [Nat.mul_succ] at this
    omega

/-! ### The links -/

/-- What changes nothing in the link of a slot leaves where it leads. -/
theorem linkTarget_congr {m m' : Buffer UInt8} {tag : Tag}
    (hm : ∀ x, h.getLinkDesc tag ≤ x → x < h.getDesc tag + h.slotSz → m x = m' x) :
    linkTarget h m tag = linkTarget h m' tag := by
  have hlen := four_add_addrBytes_le_link h
  have hslot : h.getDesc tag + h.slotSz = h.getLinkDesc tag + h.linkDescLen := by
    unfold TdlHost.getLinkDesc TdlHost.slotSz
    omega
  have hattr : m.load (h.getLinkDesc tag) 4 = m'.load (h.getLinkDesc tag) 4 :=
    Buffer.load_congr fun i hi => hm _ (by omega) (by omega)
  have haddr : m.load (h.getLinkDesc tag + 4) h.addrBytes =
      m'.load (h.getLinkDesc tag + 4) h.addrBytes :=
    Buffer.load_congr fun i hi => hm _ (by omega) (by omega)
  unfold linkTarget
  rw [hattr, haddr]

/-- The set-up of a link changes the bytes of its slot only. -/
theorem setupTransDesc_apply_of_notMem (m : Buffer UInt8) {tag : Tag} {x : ℕ}
    (hx : x < h.getDesc tag ∨ h.getDesc tag + h.slotSz ≤ x) : setupTransDesc h m tag x = m x := by
  have hlen := four_add_addrBytes_le_link h
  have hlink : h.getDesc tag ≤ h.getLinkDesc tag ∧
      h.getLinkDesc tag + h.linkDescLen = h.getDesc tag + h.slotSz := by
    unfold TdlHost.getLinkDesc TdlHost.slotSz
    omega
  have hstore : ∀ (m : Buffer UInt8) (off : ℕ) (l : List UInt8), h.getLinkDesc tag ≤ off →
      off + l.length ≤ h.getLinkDesc tag + h.linkDescLen → m.store off l x = m x := by
    intro m off l hoff hend
    rcases hx with hx | hx
    · exact Buffer.store_apply_of_lt _ _ (by omega)
    · exact Buffer.store_apply_of_le _ _ (by omega)
  have hzero : h.getLinkDesc tag + (List.replicate h.linkDescLen (0 : UInt8)).length ≤
      h.getLinkDesc tag + h.linkDescLen := by rw [List.length_replicate]
  unfold setupTransDesc
  split_ifs
  · rw [hstore _ _ _ le_rfl (by simp; omega), hstore _ _ _ le_rfl hzero]
  · rw [hstore _ _ _ (by omega) (by rw [length_leBytes]; omega),
      hstore _ _ _ le_rfl (by simp; omega), hstore _ _ _ le_rfl hzero]

/-- The link of a slot for data leads to the list of its tag. -/
theorem linkTarget_setupTransDesc (hp : h.Placed) (m : Buffer UInt8) {tag : Tag}
    (htag : tag ≠ dcmdSlot) :
    linkTarget h (setupTransDesc h m tag) tag = some (h.getTransDesc tag) := by
  have hlen := four_add_addrBytes_le_link h
  have hin := list_inside (h := h) htag
  have hpos : 0 < h.transDescLen * h.maxSegs :=
    Nat.mul_pos (by have := four_add_addrBytes_le h; omega) hp.maxSegs_pos
  have hlt : h.getTransDesc tag < 2 ^ (8 * h.addrBytes) := by have := hp.fits; omega
  set link := h.getLinkDesc tag with hlink
  set cleared := m.store link (List.replicate h.linkDescLen 0) with hcleared
  have hsetup : setupTransDesc h m tag = (cleared.store link [0x31]).store (link + 4)
      (leBytes h.addrBytes (h.getTransDesc tag)) :=
    if_neg fun hboth => htag hboth.1
  have hattr : (setupTransDesc h m tag).load link 4 = [0x31, 0, 0, 0] := by
    have hrest : (cleared.store link [0x31]).load (link + 1) 3 = [0, 0, 0] := by
      rw [Buffer.load_store_of_disjoint _ _ (.inr (by simp))]
      have hall : (m.store link (List.replicate h.linkDescLen 0)).load link 4 = [0, 0, 0, 0] := by
        rw [Buffer.load_store_take _ _ (by simp; omega), List.take_replicate,
          Nat.min_eq_left (by omega)]
        rfl
      rw [Buffer.load_succ] at hall
      exact (List.cons.inj hall).2
    rw [hsetup, Buffer.load_store_of_disjoint _ _ (.inl le_rfl), Buffer.load_succ, hrest]
    congr 1
    exact Buffer.store_apply_add cleared link 0 [0x31] (by simp)
  have haddr : leWord ((setupTransDesc h m tag).load (link + 4) h.addrBytes) =
      h.getTransDesc tag := by
    rw [hsetup, leWord_load_store _ _ _ le_rfl, Nat.mod_eq_of_lt hlt]
  unfold linkTarget
  rw [← hlink, hattr, haddr]
  exact if_neg (by decide)

/-- After the set-up all the links of the slots for data lead to their lists. -/
theorem linkTarget_cqhciHostAllocTdl (hp : h.Placed) (m : Buffer UInt8) {tag : Tag}
    (htag : tag ≠ dcmdSlot) :
    linkTarget h (cqhciHostAllocTdl h m) tag = some (h.getTransDesc tag) := by
  have hfold : ∀ (tags : List Tag) (m : Buffer UInt8),
      (tag ∈ tags ∨ linkTarget h m tag = some (h.getTransDesc tag)) →
      linkTarget h (tags.foldl (setupTransDesc h) m) tag = some (h.getTransDesc tag) := by
    intro tags
    induction tags with
    | nil => exact fun m hm => hm.resolve_left List.not_mem_nil
    | cons t tags ih =>
      intro m hm
      refine ih (setupTransDesc h m t) ?_
      by_cases ht : t = tag
      · exact .inr (by rw [ht]; exact linkTarget_setupTransDesc hp m htag)
      · rcases hm with hmem | hlink
        · exact .inl ((List.mem_cons.mp hmem).resolve_left (Ne.symm ht))
        · right
          rw [← hlink]
          refine linkTarget_congr fun x hx hx' => setupTransDesc_apply_of_notMem m ?_
          have hle : h.getDesc tag ≤ h.getLinkDesc tag := Nat.le_add_right _ _
          rcases slots_apart (h := h) ht with hapart | hapart
          · exact .inr (by omega)
          · exact .inl (by omega)
  exact hfold _ m (.inl (List.mem_finRange tag))

/-! ### Requests one after another -/

/-- A request with data for a tag, or a direct command. -/
inductive TdlOp
  | data (tag : Tag) (req : TaskReq) (sgs : List Segment)
  | dcmd (cmd : Dcmd)

namespace TdlOp

/-- The slot that is written. -/
def tag : TdlOp → Tag
  | data tag _ _ => tag
  | dcmd _ => dcmdSlot

/-- What the driver writes for it. -/
def apply (h : TdlHost) (m : Buffer UInt8) : TdlOp → Buffer UInt8
  | data tag req sgs => cqhciPrepTranDesc h m tag req sgs
  | dcmd cmd => cqhciPrepDcmdDesc h m cmd

/-- A request with data has segments, no more than the host takes, and does not use the last slot: a
host with direct commands leaves it to them, and on another host its list is not in the area. -/
def Ok (h : TdlHost) : TdlOp → Prop
  | data tag _ sgs =>
    tag ≠ dcmdSlot ∧ sgs ≠ [] ∧ sgs.length ≤ h.maxSegs ∧ ∀ sg ∈ sgs, sg.Fits h
  | dcmd _ => True

end TdlOp

/-- The memory after some requests. -/
def runTdl (h : TdlHost) (m : Buffer UInt8) (ops : List TdlOp) : Buffer UInt8 :=
  ops.foldl (TdlOp.apply h) m

/-- A direct command changes bytes of the last slot only. -/
theorem cqhciPrepDcmdDesc_apply_of_notMem (m : Buffer UInt8) (cmd : Dcmd) {x : ℕ}
    (hx : x < h.getDesc dcmdSlot ∨ h.getDesc dcmdSlot + h.slotSz ≤ x) :
    cqhciPrepDcmdDesc h m cmd x = m x := by
  have htask := le_taskDescLen h
  have hlink := four_add_addrBytes_le_link h
  have hslot : h.slotSz = h.taskDescLen + h.linkDescLen := rfl
  unfold cqhciPrepDcmdDesc
  rcases hx with hx | hx
  · rw [Buffer.store_apply_of_lt _ _ (by omega), Buffer.store_apply_of_lt _ _ hx,
      Buffer.store_apply_of_lt _ _ hx]
  · rw [Buffer.store_apply_of_le _ _ (by rw [length_leBytes]; omega),
      Buffer.store_apply_of_le _ _ (by rw [length_leBytes]; omega),
      Buffer.store_apply_of_le _ _ (by rw [List.length_replicate]; omega)]

/-- A request with data changes its task descriptor and its list only. -/
theorem cqhciPrepTranDesc_apply_of_notMem (m : Buffer UInt8) {tag : Tag} (req : TaskReq)
    {sgs : List Segment} {x : ℕ} (htask : x < h.getDesc tag ∨ h.getDesc tag + 8 ≤ x)
    (hlist : x < h.getTransDesc tag ∨ h.getTransDesc tag + h.transDescLen * sgs.length ≤ x) :
    cqhciPrepTranDesc h m tag req sgs x = m x := by
  rw [cqhciPrepTranDesc, prepTranDesc_apply_of_notMem _ hlist]
  rcases htask with hx | hx
  · exact Buffer.store_apply_of_lt _ _ hx
  · exact Buffer.store_apply_of_le _ _ (by rwa [length_leBytes])

/-- A byte of the slots is in no list that a request writes. -/
theorem notMem_list_of_slots (hp : h.Placed) {t : Tag} {sgs : List Segment} (ht : t ≠ dcmdSlot)
    (hlen : sgs.length ≤ h.maxSegs) {x : ℕ} (hx : h.descBase ≤ x)
    (hx' : x < h.descBase + h.descSize) :
    x < h.getTransDesc t ∨ h.getTransDesc t + h.transDescLen * sgs.length ≤ x := by
  have hin := list_inside (h := h) ht
  have hle := Nat.mul_le_mul_left h.transDescLen hlen
  rcases hp.apart with hapart | hapart
  · exact .inl (by omega)
  · exact .inr (by omega)

/-- A request leaves the slots of other tags as they are. -/
theorem apply_slot (hp : h.Placed) (m : Buffer UInt8) {op : TdlOp} (hok : op.Ok h) {tag : Tag}
    (hne : op.tag ≠ tag) {x : ℕ} (hx : h.getDesc tag ≤ x) (hx' : x < h.getDesc tag + h.slotSz) :
    op.apply h m x = m x := by
  have hin := slot_inside h tag
  have hapart := slots_apart (h := h) hne
  have htask := le_taskDescLen h
  have hslot : h.slotSz = h.taskDescLen + h.linkDescLen := rfl
  cases op with
  | data t req sgs =>
    obtain ⟨ht, -, hlen, -⟩ := hok
    exact cqhciPrepTranDesc_apply_of_notMem m req
      (by change h.getDesc t + _ ≤ _ ∨ _ + _ ≤ h.getDesc t at hapart; omega)
      (notMem_list_of_slots hp ht hlen (by omega) (by omega))
  | dcmd cmd =>
    exact cqhciPrepDcmdDesc_apply_of_notMem m cmd
      (by change h.getDesc dcmdSlot + _ ≤ _ ∨ _ + _ ≤ h.getDesc dcmdSlot at hapart; omega)

/-- A request leaves the lists of other tags as they are. -/
theorem apply_list (hp : h.Placed) (m : Buffer UInt8) {op : TdlOp} (hok : op.Ok h) {tag : Tag}
    (hne : op.tag ≠ tag) (htag : tag ≠ dcmdSlot) {x : ℕ} (hx : h.getTransDesc tag ≤ x)
    (hx' : x < h.getTransDesc tag + h.transDescLen * h.maxSegs) : op.apply h m x = m x := by
  have hin := list_inside (h := h) htag
  have hslot := slot_inside h op.tag
  have htask := le_taskDescLen h
  have hsz : h.slotSz = h.taskDescLen + h.linkDescLen := rfl
  have hout : x < h.getDesc op.tag ∨ h.getDesc op.tag + h.slotSz ≤ x := by
    have := hp.apart
    omega
  cases op with
  | data t req sgs =>
    obtain ⟨ht, -, hlen, -⟩ := hok
    have hle := Nat.mul_le_mul_left h.transDescLen hlen
    have hapart := lists_apart (h := h) hne
    exact cqhciPrepTranDesc_apply_of_notMem m req
      (by change x < h.getDesc t ∨ h.getDesc t + _ ≤ x at hout; omega)
      (by change h.getTransDesc t + _ ≤ _ ∨ _ + _ ≤ h.getTransDesc t at hapart; omega)
  | dcmd cmd => exact cqhciPrepDcmdDesc_apply_of_notMem m cmd hout

/-- A request leaves the links of the slots for data as they are. -/
theorem linkTarget_apply (hp : h.Placed) (m : Buffer UInt8) {op : TdlOp} (hok : op.Ok h) {tag : Tag}
    (htag : tag ≠ dcmdSlot) : linkTarget h (op.apply h m) tag = linkTarget h m tag := by
  have htask := le_taskDescLen h
  have hlink : h.getLinkDesc tag = h.getDesc tag + h.taskDescLen := rfl
  have hin := slot_inside h tag
  refine linkTarget_congr fun x hx hx' => ?_
  by_cases hne : op.tag = tag
  · cases op with
    | data t req sgs =>
      obtain rfl : t = tag := hne
      obtain ⟨ht, -, hlen, -⟩ := hok
      exact cqhciPrepTranDesc_apply_of_notMem m req (.inr (by omega))
        (notMem_list_of_slots hp ht hlen (by omega) (by omega))
    | dcmd cmd => exact absurd hne.symm htag
  · exact apply_slot hp m hok hne (by omega) hx'

/-- What each request of a list leaves as it is, they all leave as it is. -/
theorem runTdl_congr {β : Type*} (f : Buffer UInt8 → β) {ops : List TdlOp}
    (hf : ∀ op ∈ ops, ∀ m, f (op.apply h m) = f m) (m : Buffer UInt8) :
    f (runTdl h m ops) = f m := by
  induction ops generalizing m with
  | nil => rfl
  | cons op ops ih =>
    rw [runTdl, List.foldl_cons, ← runTdl, ih fun o ho => hf o (List.mem_cons_of_mem _ ho)]
    exact hf op List.mem_cons_self m

/-- Requests for other tags leave what the engine reads of a list. -/
theorem engineList_runTdl (hp : h.Placed) (m : Buffer UInt8) {ops : List TdlOp}
    (hok : ∀ op ∈ ops, op.Ok h) {tag : Tag} (htag : tag ≠ dcmdSlot)
    (hne : ∀ op ∈ ops, op.tag ≠ tag) :
    engineList h (runTdl h m ops) h.maxSegs (h.getTransDesc tag) =
      engineList h m h.maxSegs (h.getTransDesc tag) :=
  runTdl_congr (fun m => engineList h m h.maxSegs (h.getTransDesc tag))
    (fun op hop m => engineList_congr fun _ hx hx' =>
      apply_list hp m (hok op hop) (hne op hop) htag hx hx') m

/-- Requests for other tags leave a task descriptor. -/
theorem taskWord_runTdl (hp : h.Placed) (m : Buffer UInt8) {ops : List TdlOp}
    (hok : ∀ op ∈ ops, op.Ok h) {tag : Tag} (hne : ∀ op ∈ ops, op.tag ≠ tag) :
    taskWord h (runTdl h m ops) tag = taskWord h m tag := by
  have htask := le_taskDescLen h
  have hsz : h.slotSz = h.taskDescLen + h.linkDescLen := rfl
  refine runTdl_congr (fun m => taskWord h m tag) (fun op hop m => ?_) m
  exact congrArg leWord (Buffer.load_congr fun i hi =>
    apply_slot hp m (hok op hop) (hne op hop) (by omega) (by omega))

/-- The fields of a task descriptor: valid, end, interrupt, activation, forced programming, context,
data tag, direction, priority, queue barrier, reliable write, block count and block address. -/
def taskFields (req : TaskReq) : List (ℕ × ℕ) :=
  [(1, 1), (1, 1), (1, 1), (3, 5), (1, req.forcedPrg.toNat), (4, 0), (1, req.datTag.toNat),
    (1, req.read.toNat), (1, req.prio.toNat), (1, req.qbr.toNat), (1, req.relWr.toNat),
    (16, req.blocks), (32, req.blkAddr)]

theorem cqhciPrepTaskDesc_eq (req : TaskReq) :
    cqhciPrepTaskDesc req true = packFields (taskFields req) := by
  rw [← orFields_zero]
  simp [cqhciPrepTaskDesc, taskFields, orFields]

/-- **What the engine finds.** After any requests with data for other slots than the last one, and
any direct commands, the engine finds in the slot of a tag the last request with data for it: the
fields of its task descriptor, without what did not fit, and all its segments in their order. -/
theorem engine_reads_last (hp : h.Placed) (m : Buffer UInt8) {before after : List TdlOp}
    {tag : Tag} {req : TaskReq} {sgs : List Segment} (hbefore : ∀ op ∈ before, op.Ok h)
    (hok : (TdlOp.data tag req sgs).Ok h) (hafter : ∀ op ∈ after, op.Ok h)
    (hlast : ∀ op ∈ after, op.tag ≠ tag) :
    ∃ word, engineTask h (runTdl h (cqhciHostAllocTdl h m) (before ++ .data tag req sgs :: after))
        tag = some (word, sgs.map Segment.region) ∧
      unpackFields ((taskFields req).map Prod.fst) word =
        (taskFields req).map fun f => f.2 % 2 ^ f.1 := by
  obtain ⟨htag, hne, hlen, hfits⟩ := hok
  set m₁ := runTdl h (cqhciHostAllocTdl h m) before with hm₁
  set m₂ := cqhciPrepTranDesc h m₁ tag req sgs with hm₂
  have hrun : runTdl h (cqhciHostAllocTdl h m) (before ++ .data tag req sgs :: after) =
      runTdl h m₂ after := by
    rw [runTdl, List.foldl_append, List.foldl_cons]
    rfl
  have hlink : linkTarget h (runTdl h m₂ after) tag = some (h.getTransDesc tag) := by
    rw [← hrun]
    have hall : ∀ op ∈ before ++ .data tag req sgs :: after, op.Ok h := by
      intro op hop
      rcases List.mem_append.mp hop with hop | hop
      · exact hbefore op hop
      · rcases List.mem_cons.mp hop with rfl | hop
        · exact ⟨htag, hne, hlen, hfits⟩
        · exact hafter op hop
    rw [runTdl_congr (fun m => linkTarget h m tag)
      fun op hop m => linkTarget_apply hp m (hall op hop) htag]
    exact linkTarget_cqhciHostAllocTdl hp m htag
  have hlist : engineList h (runTdl h m₂ after) h.maxSegs (h.getTransDesc tag) =
      some (sgs.map Segment.region) := by
    rw [engineList_runTdl hp m₂ hafter htag hlast]
    exact engineList_prepTranDesc _ _ hne hlen hfits
  have hword : taskWord h (runTdl h m₂ after) tag = packFields (taskFields req) := by
    have hin := slot_inside h tag
    have htask := le_taskDescLen h
    have hsz : h.slotSz = h.taskDescLen + h.linkDescLen := rfl
    have hlist : ∀ x, h.getDesc tag ≤ x → x < h.getDesc tag + 8 →
        m₂ x = m₁.store (h.getDesc tag) (leBytes 8 (cqhciPrepTaskDesc req true)) x :=
      fun x hx hx' => prepTranDesc_apply_of_notMem _
        (notMem_list_of_slots hp htag hlen (by omega) (by omega))
    rw [taskWord_runTdl hp m₂ hafter hlast, taskWord,
      Buffer.load_congr fun i hi => hlist _ (by omega) (by omega),
      leWord_load_store _ _ _ le_rfl, cqhciPrepTaskDesc_eq]
    exact Nat.mod_eq_of_lt (packFields_lt (taskFields req))
  refine ⟨packFields (taskFields req), ?_, unpackFields_packFields (taskFields req)⟩
  rw [hrun, engineTask, hlink, Option.bind_some, hlist, hword]
  rfl

/-- A host with 64-bit addresses and direct commands. -/
def sampleTdl : TdlHost where
  dma64 := true
  shortTxfrDesc := false
  taskDesc128 := false
  dcmd := true
  maxSegs := 128
  descBase := 0x1000
  transDescBase := 0x10000

theorem placed_sampleTdl : sampleTdl.Placed := ⟨.inl (by decide), by decide, by decide⟩

theorem ok_sampleTdl :
    (TdlOp.data 5 ⟨false, false, true, false, false, false, 16, 0x800⟩
      [⟨0x200000000, 4096⟩, ⟨0x300000000, 4096⟩]).Ok sampleTdl := by
  refine ⟨by decide, by decide, by decide, fun sg hsg => ?_⟩
  rcases List.mem_cons.mp hsg with rfl | hsg
  · exact ⟨by decide, by decide, by decide⟩
  · rw [List.mem_singleton.mp hsg]
    exact ⟨by decide, by decide, by decide⟩

theorem engine_reads_last_sampleTdl :
    ∃ word, engineTask sampleTdl (runTdl sampleTdl (cqhciHostAllocTdl sampleTdl fun _ => 0)
        ([] ++ .data 5 ⟨false, false, true, false, false, false, 16, 0x800⟩
          [⟨0x200000000, 4096⟩, ⟨0x300000000, 4096⟩] :: [.dcmd ⟨6, 0x3200101, 0x1d⟩])) 5 =
      some (word, [⟨0x200000000, 4096⟩, ⟨0x300000000, 4096⟩]) :=
  (engine_reads_last placed_sampleTdl _ (by simp) ok_sampleTdl
    (fun op hop => by rw [List.mem_singleton.mp hop]; trivial)
    (fun op hop => by rw [List.mem_singleton.mp hop]; decide)).imp fun _ h => h.1

/-! ### The area of the lists -/

/-- **The area of the lists.** A request with data, for any tag that the host offers, changes its
task descriptor and bytes of the area only, exactly if the host has direct commands. Without them
the list of the last slot begins at the end of the area. -/
theorem lists_inside_iff (hp : h.Placed) :
    (∀ tag : Tag, tag.val < h.cqeQdepth → ∀ (req : TaskReq) (sgs : List Segment),
      sgs.length ≤ h.maxSegs → ∀ (m : Buffer UInt8) (x : ℕ),
        cqhciPrepTranDesc h m tag req sgs x ≠ m x →
          h.getDesc tag ≤ x ∧ x < h.getDesc tag + 8 ∨
            h.transDescBase ≤ x ∧ x < h.transDescBase + h.dataSize) ↔
      h.dcmd = true := by
  constructor
  · intro hinside
    by_contra hdcmd
    have hdepth : h.cqeQdepth = 32 := if_neg hdcmd
    set x := h.getTransDesc dcmdSlot with hx
    have hend : x = h.transDescBase + h.dataSize := rfl
    have hslot := slot_inside h dcmdSlot
    have htask := le_taskDescLen h
    have hsz : h.slotSz = h.taskDescLen + h.linkDescLen := rfl
    have hdesc : h.getDesc dcmdSlot = h.descBase + 31 * h.slotSz := rfl
    -- one segment, written into a memory of zeros
    set req : TaskReq := ⟨false, false, false, false, false, false, 1, 0⟩ with hreq
    set m : Buffer UInt8 := fun _ => 0 with hm
    have hwritten : cqhciPrepTranDesc h m dcmdSlot req [⟨0, 512⟩] x = 0x23 := by
      rw [cqhciPrepTranDesc, prepTranDesc, prepTranDesc, cqhciSetTranDesc,
        Buffer.store_apply_of_lt _ _ (by omega)]
      exact Buffer.store_apply_add _ x 0 (leBytes 4 (tranAttr 512 true)) (by simp)
    have hchanged : cqhciPrepTranDesc h m dcmdSlot req [⟨0, 512⟩] x ≠ m x := by
      rw [hwritten]
      exact (by decide : (0x23 : UInt8) ≠ 0)
    have hsegs : [(⟨0, 512⟩ : Segment)].length ≤ h.maxSegs := hp.maxSegs_pos
    rcases hinside dcmdSlot (by rw [hdepth]; decide) req _ hsegs m x hchanged with hin | hin
    · have := hp.apart
      omega
    · omega
  · intro hdcmd tag htag req sgs hlen m x hchanged
    have hdepth : h.cqeQdepth = 31 := if_pos hdcmd
    have hne : tag ≠ dcmdSlot := fun heq => by
      rw [hdepth, heq] at htag
      exact absurd htag (by decide)
    by_contra hout
    obtain ⟨htask, hlist⟩ := not_or.mp hout
    have hin := list_inside (h := h) hne
    have hle := Nat.mul_le_mul_left h.transDescLen hlen
    exact hchanged (cqhciPrepTranDesc_apply_of_notMem m req (by omega) (by omega))

theorem lists_inside_iff_sampleTdl :
    sampleTdl.getDesc 30 ≤ sampleTdl.getTransDesc 30 ∧
        sampleTdl.getTransDesc 30 < sampleTdl.getDesc 30 + 8 ∨
      sampleTdl.transDescBase ≤ sampleTdl.getTransDesc 30 ∧
        sampleTdl.getTransDesc 30 < sampleTdl.transDescBase + sampleTdl.dataSize :=
  (lists_inside_iff placed_sampleTdl).mpr rfl 30 (by decide)
    ⟨false, false, true, false, false, false, 16, 0x800⟩ [⟨0x200000000, 4096⟩] (by decide) (fun _ => 0)
    (sampleTdl.getTransDesc 30) (by decide +kernel)

/-! ### Direct commands -/

/-- The fields of the task descriptor of a direct command: valid, end, interrupt, activation, queue
barrier, command index, timing, response type and argument, and what lies between them. -/
def dcmdFields (cmd : Dcmd) : List (ℕ × ℕ) :=
  [(1, 1), (1, 1), (1, 1), (3, 5), (8, 0), (1, 1), (1, 0), (6, cmd.opcode),
    (1, (dcmdResponse cmd.flags).2), (2, (dcmdResponse cmd.flags).1), (7, 0), (32, cmd.arg.toNat)]

/-- The response type of a command with a response is always the one with busy, since the mask of
`MMC_RSP_R1B` holds `MMC_RSP_PRESENT`. -/
theorem dcmdResponse_eq (flags : ℕ) :
    dcmdResponse flags = if flags &&& mmcRspPresent = 0 then (0, 1) else (3, 0) := by
  unfold dcmdResponse
  by_cases hpresent : flags &&& mmcRspPresent = 0
  · rw [if_pos hpresent, if_pos hpresent]
  · have hmask : flags &&& mmcRspR1b ≠ 0 := fun hzero => hpresent (by
      have hand : flags &&& mmcRspR1b &&& mmcRspPresent = flags &&& mmcRspPresent :=
        Nat.land_assoc _ _ _
      rw [← hand, hzero, Nat.zero_and])
    rw [if_neg hpresent, if_neg hpresent, if_pos hmask]

theorem taskWord_cqhciPrepDcmdDesc (m : Buffer UInt8) (cmd : Dcmd) :
    taskWord h (cqhciPrepDcmdDesc h m cmd) dcmdSlot = packFields (dcmdFields cmd) := by
  set low : List (ℕ × ℕ) := [(1, 1), (1, 1), (1, 1), (3, 5), (8, 0), (1, 1), (1, 0),
    (6, cmd.opcode), (1, (dcmdResponse cmd.flags).2), (2, (dcmdResponse cmd.flags).1), (7, 0)]
    with hlow
  have hword : dcmdWord cmd = packFields low := by
    rw [← orFields_zero]
    simp [dcmdWord, hlow, orFields]
  have hlt : dcmdWord cmd < 2 ^ (8 * 4) := hword ▸ packFields_lt low
  have harg : cmd.arg.toNat < 2 ^ (8 * 4) := cmd.arg.isLt
  have hfields : packFields (dcmdFields cmd) = orFields 0 0 (dcmdFields cmd) :=
    (orFields_zero _).symm
  have hsplit : orFields 0 0 (dcmdFields cmd) =
      orFields (orFields 0 0 low) 32 [(32, cmd.arg.toNat)] := rfl
  have hload : ∀ m' : Buffer UInt8, leWord (m'.load (h.getDesc dcmdSlot) 8) =
      leWord (m'.load (h.getDesc dcmdSlot) 4) +
        2 ^ 32 * leWord (m'.load (h.getDesc dcmdSlot + 4) 4) := by
    intro m'
    rw [Buffer.load_add m' _ 4 4, leWord_append, Buffer.length_load]
  rw [taskWord, hload, cqhciPrepDcmdDesc, Buffer.load_store_of_disjoint _ _ (.inl le_rfl),
    leWord_load_store _ _ _ (by decide), leWord_load_store _ _ _ (by decide),
    Nat.mod_eq_of_lt hlt, Nat.mod_eq_of_lt harg, hfields, hsplit,
    orFields_eq (by rw [orFields_zero]; exact packFields_lt low), orFields_zero, ← hword]
  simp only [packFields, Nat.reducePow]
  omega

/-- The first byte of the link of the last slot after a direct command: with task descriptors of
64 bits the upper half of the argument is written over it. -/
theorem link_cqhciPrepDcmdDesc (m : Buffer UInt8) (cmd : Dcmd) :
    cqhciPrepDcmdDesc h m cmd (h.getLinkDesc dcmdSlot) =
      if h.taskDesc128 then m (h.getLinkDesc dcmdSlot) else 0 := by
  set desc := h.getDesc dcmdSlot with hdesc
  have hlink : h.getLinkDesc dcmdSlot = desc + h.taskDescLen := rfl
  unfold cqhciPrepDcmdDesc
  rw [← hdesc, hlink]
  by_cases hlong : h.taskDesc128
  · have hlen : h.taskDescLen = 16 := if_pos hlong
    rw [if_pos hlong, hlen, Buffer.store_apply_of_le _ _ (by rw [length_leBytes]; omega),
      Buffer.store_apply_of_le _ _ (by rw [length_leBytes]; omega),
      Buffer.store_apply_of_le _ _ (by rw [List.length_replicate])]
  · have hlen : h.taskDescLen = 8 := if_neg hlong
    have hindex : desc + 8 = desc + 4 + 4 := rfl
    have hpos : 4 < (leBytes 8 cmd.arg.toNat).length := by simp
    have hbyte : (leBytes 8 cmd.arg.toNat)[4] = 0 := by
      have harg : cmd.arg.toNat < 2 ^ 32 := cmd.arg.isLt
      have hshift : cmd.arg.toNat >>> 32 = 0 := by
        rw [Nat.shiftRight_eq_div_pow]
        exact Nat.div_eq_of_lt harg
      simp [leBytes, leByte, hshift]
    rw [if_neg hlong, hlen, hindex, Buffer.store_apply_add _ _ _ _ hpos, hbyte]

/-- The first byte of the link of the last slot is left alone by data, and by direct commands if
task descriptors have 128 bits. -/
theorem apply_link (hp : h.Placed) (m : Buffer UInt8) {op : TdlOp} (hok : op.Ok h)
    (hop : h.taskDesc128 = true ∨ op.tag ≠ dcmdSlot) :
    op.apply h m (h.getLinkDesc dcmdSlot) = m (h.getLinkDesc dcmdSlot) := by
  have hbyte : h.getDesc dcmdSlot ≤ h.getLinkDesc dcmdSlot ∧
      h.getLinkDesc dcmdSlot < h.getDesc dcmdSlot + h.slotSz := by
    have := four_add_addrBytes_le_link h
    unfold TdlHost.getLinkDesc TdlHost.slotSz
    omega
  cases op with
  | data tag req sgs => exact apply_slot hp m hok hok.1 hbyte.1 hbyte.2
  | dcmd cmd =>
    exact (link_cqhciPrepDcmdDesc m cmd).trans (if_pos (hop.resolve_right fun hne => hne rfl))

theorem link_cqhciHostAllocTdl (hdcmd : h.dcmd = true) (m : Buffer UInt8) :
    cqhciHostAllocTdl h m (h.getLinkDesc dcmdSlot) = 2 := by
  have htags : List.finRange 32 = (List.finRange 32).dropLast ++ [dcmdSlot] := by decide
  have hset : ∀ m' : Buffer UInt8, setupTransDesc h m' dcmdSlot (h.getLinkDesc dcmdSlot) = 2 := by
    intro m'
    have hbranch : dcmdSlot = dcmdSlot ∧ h.dcmd = true := ⟨rfl, hdcmd⟩
    rw [setupTransDesc, if_pos hbranch]
    exact Buffer.store_apply_add _ (h.getLinkDesc dcmdSlot) 0 [_] (by simp)
  rw [cqhciHostAllocTdl, htags, List.foldl_append]
  exact hset _

/-- **Direct commands.** After any requests the engine finds in the last slot the last direct
command, with the response type of a busy response whenever there is one. The end mark in the link
behind it survives only if task descriptors have 128 bits. -/
theorem engine_reads_dcmd (hp : h.Placed) (hdcmd : h.dcmd = true) (m : Buffer UInt8)
    {before after : List TdlOp} {cmd : Dcmd} (hbefore : ∀ op ∈ before, op.Ok h)
    (hafter : ∀ op ∈ after, op.Ok h) (hlast : ∀ op ∈ after, op.tag ≠ dcmdSlot) :
    unpackFields ((dcmdFields cmd).map Prod.fst)
        (taskWord h (runTdl h (cqhciHostAllocTdl h m) (before ++ .dcmd cmd :: after)) dcmdSlot) =
      [1, 1, 1, 5, 0, 1, 0, cmd.opcode % 64,
        if cmd.flags &&& mmcRspPresent = 0 then 1 else 0,
        if cmd.flags &&& mmcRspPresent = 0 then 0 else 3, 0, cmd.arg.toNat] ∧
    runTdl h (cqhciHostAllocTdl h m) (before ++ .dcmd cmd :: after) (h.getLinkDesc dcmdSlot) =
      if h.taskDesc128 then 2 else 0 := by
  set m₁ := runTdl h (cqhciHostAllocTdl h m) before with hm₁
  have hrun : runTdl h (cqhciHostAllocTdl h m) (before ++ .dcmd cmd :: after) =
      runTdl h (cqhciPrepDcmdDesc h m₁ cmd) after := by
    rw [runTdl, List.foldl_append, List.foldl_cons]
    rfl
  constructor
  · have hfields : ((dcmdFields cmd).map fun f => f.2 % 2 ^ f.1) =
        [1, 1, 1, 5, 0, 1, 0, cmd.opcode % 64,
          if cmd.flags &&& mmcRspPresent = 0 then 1 else 0,
          if cmd.flags &&& mmcRspPresent = 0 then 0 else 3, 0, cmd.arg.toNat] := by
      have harg : cmd.arg.toNat < 4294967296 := cmd.arg.isLt
      rw [dcmdFields, dcmdResponse_eq]
      by_cases hpresent : cmd.flags &&& mmcRspPresent = 0
      · simp [hpresent, Nat.mod_eq_of_lt harg]
      · simp [hpresent, Nat.mod_eq_of_lt harg]
    rw [hrun, taskWord_runTdl hp _ hafter hlast, taskWord_cqhciPrepDcmdDesc,
      unpackFields_packFields, hfields]
  · have hafterwards : runTdl h (cqhciPrepDcmdDesc h m₁ cmd) after (h.getLinkDesc dcmdSlot) =
        cqhciPrepDcmdDesc h m₁ cmd (h.getLinkDesc dcmdSlot) :=
      runTdl_congr (fun m => m (h.getLinkDesc dcmdSlot))
        (fun op hop m => apply_link hp m (hafter op hop) (.inr (hlast op hop))) _
    rw [hrun, hafterwards, link_cqhciPrepDcmdDesc]
    by_cases hlong : h.taskDesc128
    · have hfirst : m₁ (h.getLinkDesc dcmdSlot) =
          cqhciHostAllocTdl h m (h.getLinkDesc dcmdSlot) :=
        runTdl_congr (fun m => m (h.getLinkDesc dcmdSlot))
          (fun op hop m => apply_link hp m (hbefore op hop) (.inl hlong)) _
      rw [if_pos hlong, if_pos hlong, hfirst, link_cqhciHostAllocTdl hdcmd]
    · rw [if_neg hlong, if_neg hlong]

theorem engine_reads_dcmd_sampleTdl :
    let data : TdlOp := .data 5 ⟨false, false, true, false, false, false, 16, 0x800⟩
      [⟨0x200000000, 4096⟩, ⟨0x300000000, 4096⟩]
    let m := runTdl sampleTdl (cqhciHostAllocTdl sampleTdl fun _ => 0)
      ([.dcmd ⟨13, 0x10000, 0x15⟩, data] ++ .dcmd ⟨6, 0x3200101, 0x1d⟩ :: [data])
    unpackFields ((dcmdFields ⟨6, 0x3200101, 0x1d⟩).map Prod.fst) (taskWord sampleTdl m dcmdSlot) =
        [1, 1, 1, 5, 0, 1, 0, 6, 0, 3, 0, 0x3200101] ∧
      m (sampleTdl.getLinkDesc dcmdSlot) = 0 := by
  intro data m
  refine engine_reads_dcmd placed_sampleTdl rfl _ (fun op hop => ?_) (fun op hop => ?_)
    fun op hop => ?_
  · rcases List.mem_cons.mp hop with rfl | hop
    · trivial
    · rw [List.mem_singleton.mp hop]
      exact ok_sampleTdl
  · rw [List.mem_singleton.mp hop]
    exact ok_sampleTdl
  · rw [List.mem_singleton.mp hop]
    decide

end LinuxDriver.Cqhci
