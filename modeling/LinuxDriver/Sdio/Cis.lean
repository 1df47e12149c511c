import LinuxDriver.Block
import LinuxDriver.Kernel

/-!
# The card information structure of an SDIO card

The CIS is a chain of tuples: a code, a length of up to 254 and as many bytes of data. The core
parses the tuples that it knows and queues the others for the drivers. `sdio_read_cis` follows the
chain wherever it leads. It ends because every step leads to a higher address and there is
nothing to read from `0x20000` on.

A tuple is read into a block of the length that it states, and the parsers access the block with
checks, so that an access outside of it would show as `none`.

## Main definitions

* `CisCard`, `mmcIoRwDirect`: a card that answers each read with a byte or an error.
* `cistplVers1`, `cistplManfid`, `cistplFunceCommon`, `cistplFunceFunc`, `cisTplParse`: the parsers.
* `sdioReadCis`.
* `CisChain`: the tuples of a chain, in the order of the card.
* `Tuple.Unparsed`: the tuples that are left to the drivers.
* `Tuple.Taken`: the tuples that no parser refuses.

## Main results

* `cisTplParse_cis`: a tuple is parsed within its data, and what is not parsed is told apart.
* `sdioReadCis_faithful`: the tuples queued by a successful call are those of the chain.
* `sdioReadCis_of_chain`: which calls are successful.
-/

namespace LinuxDriver.Sdio

/-! ### Cards -/

/-- An error that a function returns. -/
abbrev IoError := {e : ℤ // e ≠ 0}

/-- A card: what a read of an address of function 0 gives. -/
abbrev CisCard := Fin (2 ^ 17) → Except IoError UInt8

/-- `mmc_io_rw_direct`, reading from function 0. An address of more than 17 bits is an error. -/
def mmcIoRwDirect (card : CisCard) (addr : ℕ) : Except IoError UInt8 :=
  if h : addr < 2 ^ 17 then card ⟨addr, h⟩ else .error ⟨-einval, by decide⟩

/-- `sdio_func_tuple`, without its link. -/
structure Tuple where
  code : UInt8
  data : List UInt8
  deriving DecidableEq

/-- The strings of a `CISTPL_VERS_1`: the block that holds them, and their offsets in it. -/
structure VersInfo where
  block : Block UInt8
  strings : List ℕ

/-- What the CIS functions read and write of a card. -/
structure CardCis where
  sdioVsn : ℕ
  numInfo : ℕ
  info : Option VersInfo
  vendor : ℕ
  device : ℕ
  blksize : ℕ
  maxDtr : ℕ
  tuples : List Tuple

/-- What the CIS functions read and write of a function. -/
structure FuncCis where
  num : UInt8
  numInfo : ℕ
  info : Option VersInfo
  vendor : ℕ
  device : ℕ
  maxBlksize : ℕ
  enableTimeout : ℕ
  tuples : List Tuple

/-- The card, and the function unless it is the common CIS that is read. -/
structure CisState where
  card : CardCis
  func : Option FuncCis

/-! ### Parsers -/

/-- A parser gets the data of a tuple, their number and whether an allocation succeeds. An access
outside of a block ends it with `none`. -/
abbrev TplParse := CisState → Block UInt8 → ℕ → Bool → Option (CisState × ℤ)

/-- `sizeof(char *)` -/
def sizeofCharPtr : ℕ := 8

/-- The loop of `cistpl_vers_1` that counts the strings of its data, from `i` on: the place where it
ends, and the number. -/
def countStrings (buf : Block UInt8) (size i nrStrings : ℕ) : Option (ℕ × ℕ) :=
  if i < size then
    (buf.read (2 + i)).bind fun x =>
      if x = 0xff then some (i, nrStrings)
      else countStrings buf size (i + 1) (if x = 0 then nrStrings + 1 else nrStrings)
  else some (i, nrStrings)
termination_by size - i

/-- The loop of `cistpl_vers_1` that copies the strings, with the number of those left. The pointer
to string `i` is stored in element `i` of `buffer`, which is the start of the block. -/
def copyStrings (buf : Block UInt8) : ℕ → ℕ → ℕ → ℕ → VersInfo → Option VersInfo
  | 0, _, _, _, info => some info
  | left + 1, i, string, pos, info =>
    if sizeofCharPtr * (i + 1) ≤ info.block.size then
      (info.block.strcpy string buf pos).bind fun block =>
        (block.strlen string).bind fun copied =>
          (buf.strlen pos).bind fun len =>
            copyStrings buf left (i + 1) (string + copied + 1) (pos + len + 1)
              ⟨block, info.strings ++ [string]⟩
    else none

/-- `func->num_info` and `func->info`, or those of the card. -/
def CisState.setInfo (s : CisState) (nrStrings : ℕ) (info : VersInfo) : CisState :=
  match s.func with
  | some func => { s with func := some { func with numInfo := nrStrings, info := some info } }
  | none => { s with card := { s.card with numInfo := nrStrings, info := some info } }

/-- `cistpl_vers_1` -/
def cistplVers1 : TplParse := fun s buf size alloc =>
  (countStrings buf (size - 2) 0 0).bind fun counted =>
    let size := counted.1
    let nrStrings := counted.2
    if nrStrings = 0 then some (s, 0)
    else if ¬alloc then some (s, -enomem)
    else
      let block : Block UInt8 := ⟨sizeofCharPtr * nrStrings + size, fun _ => 0⟩
      (copyStrings buf nrStrings 0 (sizeofCharPtr * nrStrings) 2 ⟨block, []⟩).map fun info =>
        (s.setInfo nrStrings info, 0)

/-- A value of 16 bits, the low byte first. -/
def le16 (lo hi : UInt8) : ℕ := lo.toNat ||| hi.toNat <<< 8

/-- `cistpl_manfid` -/
def cistplManfid : TplParse := fun s buf _ _ =>
  (buf.read 0).bind fun b0 => (buf.read 1).bind fun b1 =>
    (buf.read 2).bind fun b2 => (buf.read 3).map fun b3 =>
      let vendor := le16 b0 b1
      let device := le16 b2 b3
      match s.func with
      | some func => ({ s with func := some { func with vendor := vendor, device := device } }, 0)
      | none => ({ s with card := { s.card with vendor := vendor, device := device } }, 0)

def speedVal : List ℕ := [0, 10, 12, 13, 15, 20, 25, 30, 35, 40, 45, 50, 55, 60, 70, 80]

def speedUnit : List ℕ := [10000, 100000, 1000000, 10000000, 0, 0, 0, 0]

/-- `cistpl_funce_common` -/
def cistplFunceCommon : TplParse := fun s buf _ _ =>
  if s.func.isSome then some (s, -einval)
  else
    (buf.read 1).bind fun b1 => (buf.read 2).bind fun b2 => (buf.read 3).map fun b3 =>
      let maxDtr := speedVal.getD ((b3.toNat >>> 3) &&& 15) 0 * speedUnit.getD (b3.toNat &&& 7) 0
      ({ s with card := { s.card with blksize := le16 b1 b2, maxDtr := maxDtr } }, 0)

def sdioSdioRev100 : ℕ := 0
def sdioSdioRev110 : ℕ := 1

/-- `jiffies_to_msecs(HZ)` -/
def secondMsecs : ℕ := 1000

/-- `cistpl_funce_func` -/
def cistplFunceFunc : TplParse := fun s buf size _ =>
  match s.func with
  | none => some (s, -einval)
  | some func =>
    let vsn := s.card.sdioVsn
    let minSize := if vsn = sdioSdioRev100 then 28 else 42
    let broken := size = 28 ∧ vsn = sdioSdioRev110
    if ¬broken ∧ size < minSize then some (s, -einval)
    else
      let vsn := if broken then sdioSdioRev100 else vsn
      (buf.read 12).bind fun b12 => (buf.read 13).bind fun b13 =>
        let func := { func with maxBlksize := le16 b12 b13 }
        if sdioSdioRev100 < vsn then
          (buf.read 28).bind fun b28 => (buf.read 29).map fun b29 =>
            ({ s with func := some { func with enableTimeout := le16 b28 b29 * 10 } }, 0)
        else some ({ s with func := some { func with enableTimeout := secondMsecs } }, 0)

/-- `cis_tpl` -/
structure CisTpl where
  code : UInt8
  minSize : ℕ
  parse : Option TplParse

/-- `cis_tpl_parse` -/
def cisTplParse (tpls : List CisTpl) (s : CisState) (code : UInt8) (buf : Block UInt8) (size : ℕ)
    (alloc : Bool) : Option (CisState × ℤ) :=
  match tpls.find? fun tpl => tpl.code = code with
  | some tpl =>
    if tpl.minSize ≤ size then
      match tpl.parse with
      | some parse => parse s buf size alloc
      | none => some (s, -eilseq)
    else some (s, -einval)
  | none => some (s, -enoent)

def cisTplFunceList : List CisTpl :=
  [⟨0x00, 4, some cistplFunceCommon⟩, ⟨0x01, 0, some cistplFunceFunc⟩, ⟨0x04, 1 + 1 + 6, none⟩]

/-- `cistpl_funce` -/
def cistplFunce : TplParse := fun s buf size alloc =>
  if size < 1 then some (s, -einval)
  else (buf.read 0).bind fun b0 => cisTplParse cisTplFunceList s b0 buf size alloc

def cisTplList : List CisTpl :=
  [⟨0x15, 3, some cistplVers1⟩, ⟨0x20, 4, some cistplManfid⟩, ⟨0x21, 2, none⟩,
    ⟨0x22, 0, some cistplFunce⟩, ⟨0x91, 2, none⟩]

/-! ### Reading the chain -/

/-- The allocations of `sdio_read_cis`: for the tuple whose code is at an address, and for the
strings in it. -/
structure CisAlloc where
  tuple : ℕ → Bool
  strings : ℕ → Bool

/-- The loop that reads the data of a tuple. -/
def readData (card : CisCard) (ptr len : ℕ) : Except IoError (List UInt8) :=
  (List.range len).mapM fun i => mmcIoRwDirect card (ptr + i)

/-- The end of the loop of `sdio_read_cis`: the tuples queued, the result, and whether it is left by
the return after a failed allocation. -/
structure CisEnd where
  s : CisState
  queued : List Tuple
  ret : ℤ
  returned : Bool

theorem lt_of_mmcIoRwDirect_eq_ok {card : CisCard} {addr : ℕ} {x : UInt8}
    (h : mmcIoRwDirect card addr = .ok x) : addr < 2 ^ 17 := by
  by_contra hge
  rw [mmcIoRwDirect, dif_neg hge] at h
  cases h

/-- The loop of `sdio_read_cis`, with the tuples queued so far. -/
def cisLoop (card : CisCard) (alloc : CisAlloc) (ptr : ℕ) (s : CisState) (queued : List Tuple) :
    Option CisEnd :=
  match hcode : mmcIoRwDirect card ptr with
  | .error e => some ⟨s, queued, e, false⟩
  | .ok code =>
    have : ptr < 2 ^ 17 := lt_of_mmcIoRwDirect_eq_ok hcode
    if code = 0xff then some ⟨s, queued, 0, false⟩
    else if code = 0x00 then cisLoop card alloc (ptr + 1) s queued
    else
      match mmcIoRwDirect card (ptr + 1) with
      | .error e => some ⟨s, queued, e, false⟩
      | .ok link =>
        if link = 0xff then some ⟨s, queued, 0, false⟩
        else if ¬alloc.tuple ptr then some ⟨s, queued, -enomem, true⟩
        else
          match readData card (ptr + 2) link.toNat with
          | .error e => some ⟨s, queued, e, false⟩
          | .ok data =>
            (cisTplParse cisTplList s code (.ofList data 0) link.toNat (alloc.strings ptr)).bind
              fun parsed =>
                if parsed.2 = -eilseq ∨ parsed.2 = -enoent then
                  cisLoop card alloc (ptr + 2 + link.toNat) parsed.1 (queued ++ [⟨code, data⟩])
                else if parsed.2 ≠ 0 then some ⟨parsed.1, queued, parsed.2, false⟩
                else cisLoop card alloc (ptr + 2 + link.toNat) parsed.1 queued
termination_by 2 ^ 17 - ptr

/-- `SDIO_FBR_BASE` -/
def sdioFbrBase (fn : ℕ) : ℕ := fn * 0x100

/-- `SDIO_FBR_CIS` -/
def sdioFbrCis : ℕ := 0x09

/-- The start of a CIS, from the three bytes that point to it. -/
def readCisPtr (card : CisCard) (fn : ℕ) : Except IoError ℕ := do
  let x0 ← mmcIoRwDirect card (sdioFbrBase fn + sdioFbrCis)
  let x1 ← mmcIoRwDirect card (sdioFbrBase fn + sdioFbrCis + 1)
  let x2 ← mmcIoRwDirect card (sdioFbrBase fn + sdioFbrCis + 2)
  return x0.toNat ||| x1.toNat <<< 8 ||| x2.toNat <<< 16

/-- The number of the function whose CIS is read. -/
def CisState.fn (s : CisState) : ℕ := (s.func.map fun func => func.num.toNat).getD 0

/-- `func->tuples`, or `card->tuples`. -/
def CisState.tuples (s : CisState) : List Tuple :=
  match s.func with
  | some func => func.tuples
  | none => s.card.tuples

def CisState.setTuples (s : CisState) (tuples : List Tuple) : CisState :=
  match s.func with
  | some func => { s with func := some { func with tuples := tuples } }
  | none => { s with card := { s.card with tuples := tuples } }

/-- `sdio_read_cis` -/
def sdioReadCis (card : CisCard) (alloc : CisAlloc) (s : CisState) : Option (CisState × ℤ) :=
  match readCisPtr card s.fn with
  | .error e => some (s, e)
  | .ok ptr =>
    if s.tuples ≠ [] then some (s, -einval)
    else
      (cisLoop card alloc ptr s []).map fun r =>
        if r.returned ∨ s.func.isNone then (r.s.setTuples r.queued, r.ret)
        else (r.s.setTuples (r.queued ++ r.s.card.tuples), r.ret)

/-- `sdio_read_func_cis`, without the reference that it takes to the card. -/
def sdioReadFuncCis (card : CisCard) (alloc : CisAlloc) (s : CisState) : Option (CisState × ℤ) :=
  (sdioReadCis card alloc s).map fun r =>
    if r.2 ≠ 0 then r
    else
      let func := r.1.func.map fun func =>
        if func.vendor = 0 then
          { func with vendor := r.1.card.vendor, device := r.1.card.device }
        else func
      ({ r.1 with func := func }, 0)

/-! ### The parsers keep to their data -/

/-- What is the same after a parser as before. -/
structure CisState.SameTuples (s' s : CisState) : Prop where
  num : s'.func.map FuncCis.num = s.func.map FuncCis.num
  tuples : s'.tuples = s.tuples
  common : s'.card.tuples = s.card.tuples

/-- A parser that accessed its data only, and did not leave the tuple to others. -/
def Settles (s : CisState) (r : Option (CisState × ℤ)) : Prop :=
  ∃ s' ret, r = some (s', ret) ∧ s'.SameTuples s ∧ ret ≠ -eilseq ∧ ret ≠ -enoent

theorem CisState.SameTuples.refl (s : CisState) : s.SameTuples s := ⟨rfl, rfl, rfl⟩

theorem CisState.SameTuples.trans {s s' s'' : CisState} (h : s''.SameTuples s')
    (h' : s'.SameTuples s) : s''.SameTuples s :=
  ⟨h.num.trans h'.num, h.tuples.trans h'.tuples, h.common.trans h'.common⟩

/-- The count of the strings stops inside the data. -/
theorem countStrings_eq_some (buf : Block UInt8) (size i nrStrings : ℕ)
    (hsize : size + 2 ≤ buf.size) (hi : i ≤ size) :
    ∃ stop, i ≤ stop ∧ stop ≤ size ∧
      countStrings buf size i nrStrings =
        some (stop, nrStrings + (buf.mem.load (2 + i) (stop - i)).count 0) := by
  induction hn : size - i generalizing i nrStrings with
  | zero =>
    refine ⟨i, le_rfl, hi, ?_⟩
    rw [countStrings, if_neg (by omega), Nat.sub_self, Buffer.load_zero, List.count_nil]
    rfl
  | succ n ih =>
    have hlt : i < size := by omega
    by_cases hff : buf.mem (2 + i) = 0xff
    · refine ⟨i, le_rfl, hi, ?_⟩
      rw [countStrings, if_pos hlt, Block.read_of_lt (by omega), Option.bind_some, if_pos hff,
        Nat.sub_self, Buffer.load_zero, List.count_nil]
      rfl
    · obtain ⟨stop, hle, hstop, hcount⟩ := ih (i + 1)
        (if buf.mem (2 + i) = 0 then nrStrings + 1 else nrStrings) hlt (by omega)
      refine ⟨stop, by omega, hstop, ?_⟩
      have hsub : stop - i = stop - (i + 1) + 1 := by omega
      rw [countStrings, if_pos hlt, Block.read_of_lt (by omega), Option.bind_some, if_neg hff,
        hcount, hsub, Buffer.load_succ, ← Nat.add_assoc, List.count_cons]
      simp only [beq_iff_eq]
      split_ifs
      · rw [Nat.add_right_comm, Nat.add_assoc]
      · rfl

/-- The strings that were counted are copied within the data and within the block. -/
theorem copyStrings_isSome (buf : Block UInt8) (stop base left i pos : ℕ) (info : VersInfo)
    (hstop : stop ≤ buf.size) (hcount : (buf.mem.load pos (stop - pos)).count 0 = left)
    (hpos : 2 ≤ pos) (hle : pos ≤ stop) (hsize : info.block.size = base + (stop - 2))
    (hbase : sizeofCharPtr * (i + left) ≤ base) :
    (copyStrings buf left i (base + (pos - 2)) pos info).isSome := by
  induction left generalizing i pos info with
  | zero => rfl
  | succ left ih =>
    obtain ⟨n, hn, hstring, hrest⟩ := Block.exists_terminated hcount (by omega)
    have hfit : base + (pos - 2) + n < info.block.size := by omega
    have hptr : sizeofCharPtr * (i + 1) ≤ info.block.size := by
      have hmono : sizeofCharPtr * (i + 1) ≤ sizeofCharPtr * (i + (left + 1)) :=
        Nat.mul_le_mul_left _ (by omega)
      omega
    have hnext : base + (pos - 2) + n + 1 = base + (pos + n + 1 - 2) := by omega
    have hsub : stop - pos - (n + 1) = stop - (pos + n + 1) := by omega
    rw [copyStrings, if_pos hptr, hstring.strcpy_eq hfit, Option.bind_some,
      (hstring.store hfit).strlen_eq, Option.bind_some, hstring.strlen_eq, Option.bind_some, hnext]
    refine ih (i + 1) (pos + n + 1) _ (hsub ▸ hrest) (by omega) (by omega) hsize ?_
    rwa [Nat.add_right_comm, Nat.add_assoc]

theorem cistplVers1_settles (s : CisState) (buf : Block UInt8) (alloc : Bool)
    (hsize : 3 ≤ buf.size) : Settles s (cistplVers1 s buf buf.size alloc) := by
  have hzero : (0 : ℤ) ≠ -eilseq ∧ (0 : ℤ) ≠ -enoent := by decide
  have henomem : -enomem ≠ -eilseq ∧ -enomem ≠ -enoent := by decide
  obtain ⟨stop, -, hstop, hcount⟩ :=
    countStrings_eq_some buf (buf.size - 2) 0 0 (by omega) (Nat.zero_le _)
  rw [cistplVers1, hcount, Option.bind_some]
  dsimp only
  generalize hnr : 0 + (buf.mem.load (2 + 0) (stop - 0)).count 0 = nr
  have hzeros : (buf.mem.load 2 (stop + 2 - 2)).count 0 = nr := by
    rw [← hnr, Nat.zero_add]
    rfl
  split_ifs
  · exact ⟨s, 0, rfl, .refl s, hzero⟩
  · obtain ⟨info, hinfo⟩ := Option.isSome_iff_exists.mp <| copyStrings_isSome buf (stop + 2)
      (sizeofCharPtr * nr) nr 0 2 ⟨⟨sizeofCharPtr * nr + stop, fun _ => 0⟩, []⟩ (by omega) hzeros
      le_rfl (by omega) rfl (by rw [Nat.zero_add])
    rw [Nat.sub_self, Nat.add_zero] at hinfo
    rw [hinfo]
    refine ⟨_, 0, rfl, ?_, hzero⟩
    unfold CisState.setInfo
    cases hfunc : s.func with
    | none => exact ⟨by simp [hfunc], by simp [CisState.tuples, hfunc], rfl⟩
    | some func => exact ⟨by simp [hfunc], by simp [CisState.tuples, hfunc], rfl⟩
  · exact ⟨s, -enomem, rfl, .refl s, henomem⟩

theorem cistplManfid_settles (s : CisState) (buf : Block UInt8) (alloc : Bool)
    (hsize : 4 ≤ buf.size) : Settles s (cistplManfid s buf buf.size alloc) := by
  have hzero : (0 : ℤ) ≠ -eilseq ∧ (0 : ℤ) ≠ -enoent := by decide
  unfold cistplManfid
  simp only [Block.read_of_lt (b := buf) (show 0 < buf.size by omega),
    Block.read_of_lt (b := buf) (show 1 < buf.size by omega),
    Block.read_of_lt (b := buf) (show 2 < buf.size by omega),
    Block.read_of_lt (b := buf) (show 3 < buf.size by omega), Option.bind_some, Option.map_some]
  cases hfunc : s.func with
  | none => exact ⟨_, 0, rfl, ⟨by simp [hfunc], by simp [CisState.tuples, hfunc], rfl⟩, hzero⟩
  | some func => exact ⟨_, 0, rfl, ⟨by simp [hfunc], by simp [CisState.tuples, hfunc], rfl⟩, hzero⟩

theorem cistplFunceCommon_settles (s : CisState) (buf : Block UInt8) (alloc : Bool)
    (hsize : 4 ≤ buf.size) : Settles s (cistplFunceCommon s buf buf.size alloc) := by
  have hzero : (0 : ℤ) ≠ -eilseq ∧ (0 : ℤ) ≠ -enoent := by decide
  have heinval : -einval ≠ -eilseq ∧ -einval ≠ -enoent := by decide
  unfold cistplFunceCommon
  split_ifs with hfunc
  · exact ⟨s, -einval, rfl, .refl s, heinval⟩
  · rw [Bool.not_eq_true, Option.isSome_eq_false_iff, Option.isNone_iff_eq_none] at hfunc
    simp only [Block.read_of_lt (b := buf) (show 1 < buf.size by omega),
      Block.read_of_lt (b := buf) (show 2 < buf.size by omega),
      Block.read_of_lt (b := buf) (show 3 < buf.size by omega), Option.bind_some, Option.map_some]
    exact ⟨_, 0, rfl, ⟨by simp [hfunc], by simp [CisState.tuples, hfunc], rfl⟩, hzero⟩

/-- The length that `cistpl_funce_func` asks for covers what it reads. -/
theorem cistplFunceFunc_settles (s : CisState) (buf : Block UInt8) (alloc : Bool) :
    Settles s (cistplFunceFunc s buf buf.size alloc) := by
  have hzero : (0 : ℤ) ≠ -eilseq ∧ (0 : ℤ) ≠ -enoent := by decide
  have heinval : -einval ≠ -eilseq ∧ -einval ≠ -enoent := by decide
  unfold cistplFunceFunc
  cases hfunc : s.func with
  | none => exact ⟨s, -einval, rfl, .refl s, heinval⟩
  | some func =>
    dsimp only
    by_cases hrefused : ¬(buf.size = 28 ∧ s.card.sdioVsn = sdioSdioRev110) ∧
        buf.size < (if s.card.sdioVsn = sdioSdioRev100 then 28 else 42)
    · rw [if_pos hrefused]
      exact ⟨s, -einval, rfl, .refl s, heinval⟩
    · have hshort : 28 ≤ buf.size := by
        by_contra hlt
        refine hrefused ⟨by omega, ?_⟩
        split_ifs <;> omega
      rw [if_neg hrefused]
      simp only [Block.read_of_lt (b := buf) (show 12 < buf.size by omega),
        Block.read_of_lt (b := buf) (show 13 < buf.size by omega), Option.bind_some]
      split_ifs with hbroken hvsn hvsn
      · exact absurd hvsn (lt_irrefl _)
      · exact ⟨_, 0, rfl, ⟨by simp [hfunc], by simp [CisState.tuples, hfunc], rfl⟩, hzero⟩
      · have hlong : 42 ≤ buf.size := by
          by_contra hlt
          refine hrefused ⟨hbroken, ?_⟩
          rw [if_neg hvsn.ne']
          omega
        simp only [Block.read_of_lt (b := buf) (show 28 < buf.size by omega),
          Block.read_of_lt (b := buf) (show 29 < buf.size by omega), Option.bind_some,
          Option.map_some]
        exact ⟨_, 0, rfl, ⟨by simp [hfunc], by simp [CisState.tuples, hfunc], rfl⟩, hzero⟩
      · exact ⟨_, 0, rfl, ⟨by simp [hfunc], by simp [CisState.tuples, hfunc], rfl⟩, hzero⟩

/-- The tuples that the core leaves to the drivers: their code, or the sub-type of a `CISTPL_FUNCE`,
is unknown or is known and not parsed. -/
def Tuple.Unparsed (t : Tuple) : Prop :=
  t.code ∉ [0x15, 0x20, 0x22] ∨ t.code = 0x22 ∧ ∃ x ∈ t.data.head?, x ∉ [0x00, 0x01]

instance (t : Tuple) : Decidable t.Unparsed := inferInstanceAs (Decidable (_ ∨ _ ∧ _))

/-- A tuple was parsed within its data, and the result says whether it is left to others. -/
def Classifies (s : CisState) (t : Tuple) (r : Option (CisState × ℤ)) : Prop :=
  ∃ s' ret, r = some (s', ret) ∧ s'.SameTuples s ∧ (ret = 0 → ¬t.Unparsed) ∧
    (ret = -eilseq ∨ ret = -enoent → t.Unparsed)

theorem Settles.classifies {s : CisState} {t : Tuple} {r : Option (CisState × ℤ)}
    (h : Settles s r) (ht : ¬t.Unparsed) : Classifies s t r := by
  obtain ⟨s', ret, hr, hsame, heilseq, henoent⟩ := h
  exact ⟨s', ret, hr, hsame, fun _ => ht, fun hret => (hret.elim heilseq henoent).elim⟩

/-- What a table says about a tuple whose parser is not called. -/
theorem classifies_of_ne_zero (s : CisState) {t : Tuple} {ret : ℤ} (hret : ret ≠ 0)
    (h : ret = -eilseq ∨ ret = -enoent → t.Unparsed) : Classifies s t (some (s, ret)) :=
  ⟨s, ret, rfl, .refl s, fun hzero => absurd hzero hret, h⟩

theorem classifies_einval (s : CisState) (t : Tuple) : Classifies s t (some (s, -einval)) :=
  classifies_of_ne_zero s (by decide) fun h => absurd h (by decide)

theorem Tuple.not_unparsed_funce {x : UInt8} {data : List UInt8} (h : x ∈ [0x00, 0x01]) :
    ¬(⟨0x22, x :: data⟩ : Tuple).Unparsed := by
  rintro (hcode | ⟨-, y, hy, hnot⟩)
  · have hmem : (0x22 : UInt8) ∈ [0x15, 0x20, 0x22] := by decide
    exact hcode hmem
  · obtain rfl : x = y := Option.some.inj hy
    exact hnot h

theorem Tuple.unparsed_funce {x : UInt8} {data : List UInt8} (h : x ∉ [0x00, 0x01]) :
    (⟨0x22, x :: data⟩ : Tuple).Unparsed :=
  .inr ⟨rfl, x, rfl, h⟩

theorem cistplFunce_classifies (s : CisState) (data : List UInt8) (alloc : Bool) :
    Classifies s ⟨0x22, data⟩ (cistplFunce s (.ofList data 0) data.length alloc) := by
  unfold cistplFunce
  cases data with
  | nil => exact classifies_einval s _
  | cons x data =>
    rw [if_neg (by simp), Block.read_of_lt (by simp [Block.ofList]), Option.bind_some]
    change Classifies s _ (cisTplParse cisTplFunceList s x (.ofList (x :: data) 0)
      (Block.ofList (x :: data) 0).size alloc)
    generalize Block.ofList (x :: data) 0 = buf
    by_cases h0 : x = 0x00
    · subst h0
      change Classifies s _ (if 4 ≤ buf.size then cistplFunceCommon s buf buf.size alloc
        else some (s, -einval))
      split_ifs with hsize
      · exact (cistplFunceCommon_settles s buf alloc hsize).classifies
          (Tuple.not_unparsed_funce (by decide))
      · exact classifies_einval s _
    · by_cases h1 : x = 0x01
      · subst h1
        change Classifies s _ (if 0 ≤ buf.size then cistplFunceFunc s buf buf.size alloc
          else some (s, -einval))
        rw [if_pos (Nat.zero_le _)]
        exact (cistplFunceFunc_settles s buf alloc).classifies
          (Tuple.not_unparsed_funce (by decide))
      · have hunparsed : (⟨0x22, x :: data⟩ : Tuple).Unparsed :=
          Tuple.unparsed_funce (by simp [h0, h1])
        by_cases h4 : x = 0x04
        · subst h4
          change Classifies s _ (if 1 + 1 + 6 ≤ buf.size then some (s, -eilseq)
            else some (s, -einval))
          split_ifs
          · exact classifies_of_ne_zero s (by decide) fun _ => hunparsed
          · exact classifies_einval s _
        · have hfind : cisTplFunceList.find? (fun tpl => tpl.code = x) = none := by
            simp [cisTplFunceList, Ne.symm h0, Ne.symm h1, Ne.symm h4]
          rw [cisTplParse, hfind]
          exact classifies_of_ne_zero s (by decide) fun _ => hunparsed

theorem Tuple.unparsed_of_notMem {code : UInt8} {data : List UInt8}
    (h : code ∉ [0x15, 0x20, 0x22]) : (⟨code, data⟩ : Tuple).Unparsed := .inl h

theorem Tuple.not_unparsed_of_ne {code : UInt8} {data : List UInt8} (h : code ∈ [0x15, 0x20, 0x22])
    (hne : code ≠ 0x22) : ¬(⟨code, data⟩ : Tuple).Unparsed := by
  rintro (hcode | ⟨heq, -⟩)
  · exact hcode h
  · exact hne heq

/-- **Parsing a tuple.** No access falls outside of the data or of the block for the strings, and
the result tells whether the tuple is left to the drivers. -/
theorem cisTplParse_cis (s : CisState) (code : UInt8) (data : List UInt8) (alloc : Bool) :
    Classifies s ⟨code, data⟩
      (cisTplParse cisTplList s code (.ofList data 0) data.length alloc) := by
  by_cases h15 : code = 0x15
  · subst h15
    change Classifies s _ (if 3 ≤ data.length then
      cistplVers1 s (.ofList data 0) data.length alloc else some (s, -einval))
    split_ifs with hsize
    · exact (cistplVers1_settles s (.ofList data 0) alloc hsize).classifies
        (Tuple.not_unparsed_of_ne (by decide) (by decide))
    · exact classifies_einval s _
  by_cases h20 : code = 0x20
  · subst h20
    change Classifies s _ (if 4 ≤ data.length then
      cistplManfid s (.ofList data 0) data.length alloc else some (s, -einval))
    split_ifs with hsize
    · exact (cistplManfid_settles s (.ofList data 0) alloc hsize).classifies
        (Tuple.not_unparsed_of_ne (by decide) (by decide))
    · exact classifies_einval s _
  by_cases h22 : code = 0x22
  · subst h22
    change Classifies s _ (if 0 ≤ data.length then
      cistplFunce s (.ofList data 0) data.length alloc else some (s, -einval))
    rw [if_pos (Nat.zero_le _)]
    exact cistplFunce_classifies s data alloc
  have hunparsed : (⟨code, data⟩ : Tuple).Unparsed :=
    Tuple.unparsed_of_notMem (by simp [h15, h20, h22])
  by_cases hknown : code = 0x21 ∨ code = 0x91
  · rcases hknown with rfl | rfl
    all_goals
      change Classifies s _ (if 2 ≤ data.length then some (s, -eilseq) else some (s, -einval))
      split_ifs
      · exact classifies_of_ne_zero s (by decide) fun _ => hunparsed
      · exact classifies_einval s _
  · have hfind : cisTplList.find? (fun tpl => tpl.code = code) = none := by
      obtain ⟨h21, h91⟩ := not_or.mp hknown
      simp [cisTplList, Ne.symm h15, Ne.symm h20, Ne.symm h21, Ne.symm h22, Ne.symm h91]
    rw [cisTplParse, hfind]
    exact classifies_of_ne_zero s (by decide) fun _ => hunparsed

/-! ### The chain -/

/-- The tuples of the chain that starts at an address, in the order of the card, up to the
terminator: a code of `0xff`, or a length of `0xff`. A code of zero stands alone. -/
inductive CisChain (card : CisCard) : ℕ → List Tuple → Prop
  | stop {ptr : ℕ} (hcode : mmcIoRwDirect card ptr = .ok 0xff) : CisChain card ptr []
  | null {ptr : ℕ} {ts : List Tuple} (hcode : mmcIoRwDirect card ptr = .ok 0x00)
      (hrest : CisChain card (ptr + 1) ts) : CisChain card ptr ts
  | stopLink {ptr : ℕ} {code : UInt8} (hcode : mmcIoRwDirect card ptr = .ok code)
      (hff : code ≠ 0xff) (hnull : code ≠ 0x00)
      (hlink : mmcIoRwDirect card (ptr + 1) = .ok 0xff) : CisChain card ptr []
  | tuple {ptr : ℕ} {code link : UInt8} {data : List UInt8} {ts : List Tuple}
      (hcode : mmcIoRwDirect card ptr = .ok code) (hff : code ≠ 0xff) (hnull : code ≠ 0x00)
      (hlink : mmcIoRwDirect card (ptr + 1) = .ok link) (hlinkff : link ≠ 0xff)
      (hlen : data.length = link.toNat)
      (hdata : ∀ i (hi : i < data.length), mmcIoRwDirect card (ptr + 2 + i) = .ok data[i])
      (hrest : CisChain card (ptr + 2 + link.toNat) ts) : CisChain card ptr (⟨code, data⟩ :: ts)

private theorem forall₂_of_mapM_eq_ok {f : ℕ → Except IoError UInt8} {is : List ℕ}
    {data : List UInt8} (h : is.mapM f = .ok data) :
    List.Forall₂ (fun i x => f i = .ok x) is data := by
  induction is generalizing data with
  | nil =>
    cases h
    exact .nil
  | cons i is ih =>
    rw [List.mapM_cons] at h
    cases hi : f i with
    | error e =>
      rw [hi] at h
      cases h
    | ok x =>
      cases his : is.mapM f with
      | error e =>
        rw [hi, his] at h
        cases h
      | ok xs =>
        rw [hi, his] at h
        cases h
        exact .cons hi (ih his)

theorem readData_eq_ok {card : CisCard} {ptr len : ℕ} {data : List UInt8}
    (h : readData card ptr len = .ok data) : data.length = len ∧
      ∀ i (hi : i < data.length), mmcIoRwDirect card (ptr + i) = .ok data[i] := by
  have hall := forall₂_of_mapM_eq_ok h
  have hlen : len = data.length := by simpa using hall.length_eq
  refine ⟨hlen.symm, fun i hi => ?_⟩
  have hget := hall.get (by simpa [hlen] using hi) hi
  simpa using hget

/-- The terminator and the tuples before it are determined by the card. -/
theorem CisChain.unique {card : CisCard} {ptr : ℕ} {ts ts' : List Tuple} (h : CisChain card ptr ts)
    (h' : CisChain card ptr ts') : ts = ts' := by
  have hinj : ∀ {addr : ℕ} {x y : UInt8}, mmcIoRwDirect card addr = .ok x →
      mmcIoRwDirect card addr = .ok y → x = y := fun h h' => Except.ok.inj (h.symm.trans h')
  induction h generalizing ts' with
  | stop hcode =>
    cases h' with
    | stop | stopLink => rfl
    | null hcode' => exact absurd (hinj hcode hcode') (by decide)
    | tuple hcode' hff' => exact absurd (hinj hcode' hcode) hff'
  | null hcode hrest ih =>
    cases h' with
    | stop hcode' => exact absurd (hinj hcode hcode') (by decide)
    | null hcode' hrest' => exact ih hrest'
    | stopLink hcode' hff' hnull' => exact absurd (hinj hcode' hcode) hnull'
    | tuple hcode' hff' hnull' => exact absurd (hinj hcode' hcode) hnull'
  | stopLink hcode hff hnull hlink =>
    cases h' with
    | stop | stopLink => rfl
    | null hcode' => exact absurd (hinj hcode hcode') hnull
    | tuple hcode' hff' hnull' hlink' hlinkff' => exact absurd (hinj hlink' hlink) hlinkff'
  | tuple hcode hff hnull hlink hlinkff hlen hdata hrest ih =>
    cases h' with
    | stop hcode' => exact absurd (hinj hcode hcode') hff
    | null hcode' => exact absurd (hinj hcode hcode') hnull
    | stopLink hcode' hff' hnull' hlink' => exact absurd (hinj hlink hlink') hlinkff
    | tuple hcode' hff' hnull' hlink' hlinkff' hlen' hdata' hrest' =>
      obtain rfl := hinj hcode hcode'
      obtain rfl := hinj hlink hlink'
      have hsame := List.ext_getElem (hlen.trans hlen'.symm) fun i hi hi' =>
        hinj (hdata i hi) (hdata' i hi')
      rw [hsame, ih hrest']

/-- **Following the chain.** The loop ends without a fault, and if it is successful then it has
queued the tuples of the chain that are not parsed. -/
theorem cisLoop_eq_some (card : CisCard) (alloc : CisAlloc) (ptr : ℕ) (s : CisState)
    (queued : List Tuple) :
    ∃ r, cisLoop card alloc ptr s queued = some r ∧ r.s.SameTuples s ∧
      (r.ret = 0 → r.returned = false ∧
        ∃ ts, CisChain card ptr ts ∧ r.queued = queued ++ ts.filter Tuple.Unparsed) := by
  induction hn : 2 ^ 17 - ptr using Nat.strong_induction_on generalizing ptr s queued with
  | _ n ih =>
    rw [cisLoop]
    split
    · next e he => exact ⟨_, rfl, .refl s, fun hret => absurd hret e.2⟩
    · next code hcode =>
      have hlt := lt_of_mmcIoRwDirect_eq_ok hcode
      by_cases hff : code = 0xff
      · rw [if_pos hff]
        exact ⟨_, rfl, .refl s, fun _ => ⟨rfl, [], .stop (hff ▸ hcode), by simp⟩⟩
      rw [if_neg hff]
      by_cases hnull : code = 0x00
      · rw [if_pos hnull]
        obtain ⟨r, hr, hsame, hret⟩ := ih _ (by omega) (ptr + 1) s queued rfl
        refine ⟨r, hr, hsame, fun hzero => ?_⟩
        obtain ⟨hreturned, ts, hchain, hqueued⟩ := hret hzero
        exact ⟨hreturned, ts, .null (hnull ▸ hcode) hchain, hqueued⟩
      rw [if_neg hnull]
      split
      · next e he => exact ⟨_, rfl, .refl s, fun hret => absurd hret e.2⟩
      · next link hlink =>
        by_cases hlinkff : link = 0xff
        · rw [if_pos hlinkff]
          exact ⟨_, rfl, .refl s, fun _ =>
            ⟨rfl, [], .stopLink hcode hff hnull (hlinkff ▸ hlink), by simp⟩⟩
        rw [if_neg hlinkff]
        by_cases halloc : alloc.tuple ptr = true
        · rw [if_neg (not_not.mpr halloc)]
          split
          · next e he => exact ⟨_, rfl, .refl s, fun hret => absurd hret e.2⟩
          · next data hdata =>
            obtain ⟨hlen, hbytes⟩ := readData_eq_ok hdata
            obtain ⟨s', ret, hparse, hsame, hparsed, hleft⟩ :=
              cisTplParse_cis s code data (alloc.strings ptr)
            have hchain : ∀ ts, CisChain card (ptr + 2 + link.toNat) ts →
                CisChain card ptr (⟨code, data⟩ :: ts) :=
              fun ts => .tuple hcode hff hnull hlink hlinkff hlen hbytes
            rw [← hlen, hparse, Option.bind_some]
            rw [← hlen] at hchain
            dsimp only
            split_ifs with hqueue herror
            · obtain ⟨r, hr, hsame', hret⟩ := ih _ (by omega) (ptr + 2 + data.length) s'
                (queued ++ [⟨code, data⟩]) rfl
              refine ⟨r, hr, hsame'.trans hsame, fun hzero => ?_⟩
              obtain ⟨hreturned, ts, hts, hqueued⟩ := hret hzero
              refine ⟨hreturned, _, hchain ts hts, ?_⟩
              rw [hqueued, List.filter_cons_of_pos (by simpa using hleft hqueue)]
              simp
            · exact ⟨_, rfl, hsame, fun hret => absurd hret herror⟩
            · obtain ⟨r, hr, hsame', hret⟩ := ih _ (by omega) (ptr + 2 + data.length) s' queued rfl
              refine ⟨r, hr, hsame'.trans hsame, fun hzero => ?_⟩
              obtain ⟨hreturned, ts, hts, hqueued⟩ := hret hzero
              refine ⟨hreturned, _, hchain ts hts, ?_⟩
              rw [hqueued, List.filter_cons_of_neg (by simpa using hparsed (not_not.mp herror))]
        · have henomem : -enomem ≠ 0 := by decide
          rw [if_pos halloc]
          exact ⟨_, rfl, .refl s, fun hret => absurd hret henomem⟩

theorem CisState.setTuples_tuples (s : CisState) (ts : List Tuple) :
    (s.setTuples ts).tuples = ts := by
  unfold CisState.setTuples CisState.tuples
  cases s.func <;> rfl

/-- **Faithful parsing.** On every card and for every function, `sdio_read_cis` returns without an
access outside of the data of a tuple or of the block for its strings. If it returns zero then the
tuples are those of the chain that are left to the drivers, and for a function the common ones. -/
theorem sdioReadCis_faithful (card : CisCard) (alloc : CisAlloc) (s : CisState) :
    ∃ s' ret, sdioReadCis card alloc s = some (s', ret) ∧
      (ret = 0 → ∃ ptr ts, readCisPtr card s.fn = .ok ptr ∧ CisChain card ptr ts ∧
        s'.tuples = ts.filter Tuple.Unparsed ++ if s.func.isSome then s.card.tuples else []) := by
  unfold sdioReadCis
  cases hptr : readCisPtr card s.fn with
  | error e => exact ⟨s, e, rfl, fun hret => absurd hret e.2⟩
  | ok ptr =>
    dsimp only
    by_cases hempty : s.tuples ≠ []
    · rw [if_pos hempty]
      exact ⟨s, -einval, rfl, fun hret => absurd hret (by decide)⟩
    · rw [if_neg hempty]
      obtain ⟨r, hr, hsame, hret⟩ := cisLoop_eq_some card alloc ptr s []
      rw [hr, Option.map_some]
      cases hfunc : s.func with
      | none =>
        rw [if_pos (.inr rfl)]
        refine ⟨_, _, rfl, fun hzero => ?_⟩
        obtain ⟨-, ts, hchain, hqueued⟩ := hret hzero
        refine ⟨ptr, ts, rfl, hchain, ?_⟩
        rw [CisState.setTuples_tuples, hqueued]
        simp
      | some func =>
        by_cases hreturned : r.returned = true
        · rw [if_pos (.inl hreturned)]
          refine ⟨_, _, rfl, fun hzero => ?_⟩
          rw [(hret hzero).1] at hreturned
          cases hreturned
        · rw [if_neg (by simp [hreturned])]
          refine ⟨_, _, rfl, fun hzero => ?_⟩
          obtain ⟨-, ts, hchain, hqueued⟩ := hret hzero
          refine ⟨ptr, ts, rfl, hchain, ?_⟩
          rw [CisState.setTuples_tuples, hqueued, hsame.common]
          simp

/-! ### Chains that are read to the end -/

/-- A tuple that no parser refuses, in the common CIS or in that of a function. -/
def Tuple.Taken (t : Tuple) (func : Bool) : Prop :=
  ∀ s : CisState, s.func.isSome = func → ∀ r,
    cisTplParse cisTplList s t.code (.ofList t.data 0) t.data.length true = some r →
      r.2 = 0 ∨ r.2 = -eilseq ∨ r.2 = -enoent

theorem Tuple.taken_of_notMem {code : UInt8} {data : List UInt8} (func : Bool)
    (hcode : code ∉ [0x15, 0x20, 0x22]) (hlen : 2 ≤ data.length) :
    (⟨code, data⟩ : Tuple).Taken func := by
  have hne : code ≠ 0x15 ∧ code ≠ 0x20 ∧ code ≠ 0x22 := by simpa using hcode
  intro s _ r hr
  by_cases hknown : code = 0x21 ∨ code = 0x91
  · have hparse : cisTplParse cisTplList s code (.ofList data 0) data.length true =
        some (s, -eilseq) := by
      rcases hknown with rfl | rfl <;> exact if_pos hlen
    rw [hparse] at hr
    obtain rfl := Option.some.inj hr
    exact .inr (.inl rfl)
  · have hfind : cisTplList.find? (fun tpl => tpl.code = code) = none := by
      obtain ⟨h21, h91⟩ := not_or.mp hknown
      simp [cisTplList, Ne.symm hne.1, Ne.symm hne.2.1, Ne.symm h21, Ne.symm hne.2.2, Ne.symm h91]
    rw [cisTplParse, hfind] at hr
    obtain rfl := Option.some.inj hr
    exact .inr (.inr rfl)

theorem Tuple.taken_manfid {data : List UInt8} (func : Bool) (hlen : 4 ≤ data.length) :
    (⟨0x20, data⟩ : Tuple).Taken func := by
  intro s _ r hr
  have hparse : cisTplParse cisTplList s 0x20 (.ofList data 0) data.length true =
      cistplManfid s (.ofList data 0) data.length true := if_pos hlen
  have hread : ∀ i < 4, (Block.ofList data (0 : UInt8)).read i = some (data.getD i 0) :=
    fun i hi => Block.read_of_lt (hi.trans_le hlen)
  rw [hparse, cistplManfid, hread 0 (by decide), hread 1 (by decide), hread 2 (by decide),
    hread 3 (by decide)] at hr
  cases hfunc : s.func with
  | none =>
    rw [hfunc] at hr
    obtain rfl := Option.some.inj hr
    exact .inl rfl
  | some func =>
    rw [hfunc] at hr
    obtain rfl := Option.some.inj hr
    exact .inl rfl

private theorem mapM_eq_ok_of_forall₂ {f : ℕ → Except IoError UInt8} {is : List ℕ}
    {data : List UInt8} (h : List.Forall₂ (fun i x => f i = .ok x) is data) :
    is.mapM f = .ok data := by
  induction h with
  | nil => rfl
  | cons hi _ ih =>
    rw [List.mapM_cons, hi, ih]
    rfl

theorem readData_of_ok {card : CisCard} {ptr : ℕ} {data : List UInt8}
    (h : ∀ i (hi : i < data.length), mmcIoRwDirect card (ptr + i) = .ok data[i]) :
    readData card ptr data.length = .ok data := by
  refine mapM_eq_ok_of_forall₂ (List.forall₂_iff_get.mpr ⟨List.length_range, fun i _ hi => ?_⟩)
  simpa using h i hi

theorem cisLoop_of_chain {card : CisCard} {alloc : CisAlloc} (htuple : ∀ addr, alloc.tuple addr)
    (hstrings : ∀ addr, alloc.strings addr) {ptr : ℕ} {ts : List Tuple}
    (hchain : CisChain card ptr ts) {s : CisState} (htaken : ∀ t ∈ ts, t.Taken s.func.isSome)
    (queued : List Tuple) :
    ∃ r, cisLoop card alloc ptr s queued = some r ∧ r.ret = 0 := by
  induction hchain generalizing s queued with
  | stop hcode =>
    rw [cisLoop]
    split
    next e he => cases hcode.symm.trans he
    next code' hcode' =>
      obtain rfl := Except.ok.inj (hcode.symm.trans hcode')
      exact ⟨_, rfl, rfl⟩
  | null hcode hrest ih =>
    rw [cisLoop]
    split
    next e he => cases hcode.symm.trans he
    next code' hcode' =>
      obtain rfl := Except.ok.inj (hcode.symm.trans hcode')
      exact ih htaken queued
  | stopLink hcode hff hnull hlink =>
    rw [cisLoop]
    split
    next e he => cases hcode.symm.trans he
    next code' hcode' =>
      obtain rfl := Except.ok.inj (hcode.symm.trans hcode')
      rw [if_neg hff, if_neg hnull, hlink]
      exact ⟨_, rfl, rfl⟩
  | @tuple ptr code link data ts hcode hff hnull hlink hlinkff hlen hdata hrest ih =>
    rw [cisLoop]
    split
    next e he => cases hcode.symm.trans he
    next code' hcode' =>
      obtain rfl := Except.ok.inj (hcode.symm.trans hcode')
      obtain ⟨s', ret, hparse, hsame, -, -⟩ := cisTplParse_cis s code data true
      have hret := htaken _ List.mem_cons_self s rfl _ hparse
      have hfunc : s'.func.isSome = s.func.isSome := by
        rw [← Option.isSome_map, hsame.num, Option.isSome_map]
      have htaken' : ∀ t ∈ ts, t.Taken s'.func.isSome := fun t ht =>
        hfunc ▸ htaken t (List.mem_cons_of_mem _ ht)
      rw [if_neg hff, if_neg hnull, hlink]
      dsimp only
      rw [if_neg hlinkff, if_neg (not_not.mpr (htuple ptr)), ← hlen, readData_of_ok hdata,
        hstrings ptr]
      dsimp only
      rw [hparse, Option.bind_some]
      dsimp only
      rw [hlen]
      split_ifs with hqueue herror
      · exact ih htaken' _
      · exact absurd (hret.resolve_left herror) hqueue
      · exact ih htaken' _

/-- **Chains that are read to the end.** Where the pointer to the chain and the chain can be read,
no parser refuses a tuple and there is memory, `sdio_read_cis` returns zero. -/
theorem sdioReadCis_of_chain {card : CisCard} {alloc : CisAlloc} {s : CisState} {ptr : ℕ}
    {ts : List Tuple} (htuple : ∀ addr, alloc.tuple addr) (hstrings : ∀ addr, alloc.strings addr)
    (hptr : readCisPtr card s.fn = .ok ptr) (hempty : s.tuples = [])
    (hchain : CisChain card ptr ts) (htaken : ∀ t ∈ ts, t.Taken s.func.isSome) :
    ∃ s', sdioReadCis card alloc s = some (s', 0) := by
  obtain ⟨r, hr, hzero⟩ := cisLoop_of_chain htuple hstrings hchain htaken []
  rw [sdioReadCis, hptr]
  dsimp only
  rw [if_neg (not_not.mpr hempty), hr, Option.map_some, ← hzero]
  split_ifs <;> exact ⟨_, rfl⟩

/-- A card whose common CIS says who made it, and has a tuple for the drivers. -/
def sampleCisCard : CisCard := fun addr =>
  .ok <| if addr.val < 0x1000 then [0x00, 0x10, 0x00].getD (addr.val - 9) 0
    else [0x20, 4, 0x97, 0x02, 0x29, 0x90, 0x80, 2, 0x01, 0x00].getD (addr.val - 0x1000) 0xff

example : ∃ s', sdioReadCis sampleCisCard ⟨fun _ => true, fun _ => true⟩
    ⟨⟨0, 0, none, 0, 0, 0, 0, []⟩, none⟩ = some (s', 0) := by
  have hend : CisChain sampleCisCard 0x100a [] := .stop rfl
  have hlast : CisChain sampleCisCard 0x1006 [⟨0x80, [0x01, 0x00]⟩] :=
    @CisChain.tuple _ _ _ 2 _ _ rfl (by decide) (by decide) rfl (by decide) rfl
      (fun i hi => by
        change i < 2 at hi
        interval_cases i <;> rfl) hend
  have hchain : CisChain sampleCisCard 0x1000
      [⟨0x20, [0x97, 0x02, 0x29, 0x90]⟩, ⟨0x80, [0x01, 0x00]⟩] :=
    @CisChain.tuple _ _ _ 4 _ _ rfl (by decide) (by decide) rfl (by decide) rfl
      (fun i hi => by
        change i < 4 at hi
        interval_cases i <;> rfl) hlast
  refine sdioReadCis_of_chain (fun _ => rfl) (fun _ => rfl) rfl rfl hchain fun t ht => ?_
  simp only [List.mem_cons, List.not_mem_nil, or_false] at ht
  rcases ht with rfl | rfl
  · exact Tuple.taken_manfid _ (by decide)
  · exact Tuple.taken_of_notMem _ (by decide) (by decide)

end LinuxDriver.Sdio
