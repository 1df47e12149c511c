import LinuxDriver.Mmc.WaitForReq

/-!
# The validation of a request

`mmc_mrq_prep` of `core/core.c` sets the links between the parts of a request, and checks the size
of its data: against the limits of the host, and against the scatter list. The size of the data and
the sum of the list are both computed in `unsigned int`. If one of them wraps, a request may be
accepted whose size is above the limit, or whose list is of another size.

## Main definitions

* `MmcCommand`, `MmcData`, `MmcRequest`, `Objects`: the parts of a request, and where they are.
* `Objects.mmcMrqPrep`.
* `MmcData.bytes`, `MmcData.listed`: the exact size of the data, and of its scatter list.
* `Objects.PrepExact`: an accepted request is as the host allows, a rejected one is not touched.

## Main results

* `Objects.mmcMrqPrep_eq_zero_iff`: the requests that are accepted.
* `Objects.prepExact_iff`: the validation is exact if and only if the request is refused, or
  neither of the sizes reaches `2 ^ 32`.
-/

namespace LinuxDriver.Mmc

/-! ### The parts of a request -/

/-- `mmc_command`: its error, and the request and the data that it is linked to. -/
structure MmcCommand where
  error : ℤ
  mrq : Option ℕ
  data : Option ℕ

/-- `mmc_data`: the size and number of the blocks, the lengths of the `sg_len` entries of its
scatter list, its error, and the request and the stop command that it is linked to. -/
structure MmcData where
  blksz : UInt32
  blocks : UInt32
  sg : List UInt32
  error : ℤ
  mrq : Option ℕ
  stop : Option ℕ

/-- `mmc_request`: the parts that it has. -/
structure MmcRequest where
  cmd : Option ℕ
  sbc : Option ℕ
  data : Option ℕ
  stop : Option ℕ

/-- The commands and the data by their addresses. -/
structure Objects where
  command : ℕ → MmcCommand
  data : ℕ → MmcData

/-- The limits of a host for the data of a request. -/
structure HostLimits where
  maxBlkSize : UInt32
  maxBlkCount : UInt32
  maxReqSize : UInt32

namespace MmcData

/-- The exact size of the blocks. -/
def bytes (data : MmcData) : ℕ := data.blksz.toNat * data.blocks.toNat

/-- The exact sum of the lengths of the scatter list. -/
def listed (data : MmcData) : ℕ := (data.sg.map UInt32.toNat).sum

/-- The loop over the scatter list: the sum that it computes. -/
def sz (data : MmcData) : UInt32 := data.sg.foldl (fun sz length => sz + length) 0

/-- The checks of `mmc_mrq_prep`. -/
def accepted (data : MmcData) (host : HostLimits) : Bool :=
  if host.maxBlkSize < data.blksz ∨ host.maxBlkCount < data.blocks ∨
      host.maxReqSize < data.blocks * data.blksz then false
  else data.sz == data.blocks * data.blksz

/-- What the request is for `mmc_wait_for_req`. -/
def view (data : MmcData) : MrqData :=
  ⟨data.blksz.toNat, data.blocks.toNat, data.sg.map UInt32.toNat⟩

end MmcData

namespace Objects

/-- The objects with another command at one address. -/
def setCommand (o : Objects) (a : ℕ) (c : MmcCommand) : Objects :=
  { o with command := Function.update o.command a c }

/-- The objects with other data at one address. -/
def setData (o : Objects) (a : ℕ) (d : MmcData) : Objects :=
  { o with data := Function.update o.data a d }

/-- The error of a command is reset, and the command linked to the request. -/
def linkCommand (o : Objects) (mrq : ℕ) : Option ℕ → Objects
  | none => o
  | some a => o.setCommand a { o.command a with error := 0, mrq := some mrq }

/-- The links of the main command, which has one to the data. -/
def linkCmd (o : Objects) (mrq : ℕ) (r : MmcRequest) : Objects :=
  match r.cmd with
  | none => o
  | some a => o.setCommand a { o.command a with error := 0, mrq := some mrq, data := r.data }

/-- The links of the data and of the stop command. -/
def linkData (o : Objects) (mrq : ℕ) (r : MmcRequest) (d : ℕ) : Objects :=
  let o := o.setData d { o.data d with error := 0, mrq := some mrq }
  match r.stop with
  | none => o
  | some s => (o.setData d { o.data d with stop := some s }).linkCommand mrq (some s)

/-- `mmc_mrq_prep` of the request `r` at the address `mrq`: the objects, and the error. -/
def mmcMrqPrep (host : HostLimits) (mrq : ℕ) (r : MmcRequest) (o : Objects) : Objects × ℤ :=
  let o := (o.linkCmd mrq r).linkCommand mrq r.sbc
  match r.data with
  | none => (o, 0)
  | some d => if (o.data d).accepted host then (o.linkData mrq r d, 0) else (o, -einval)

end Objects

/-! ### The checks -/

namespace MmcData

variable (data : MmcData) (host : HostLimits)

/-- The loop over a scatter list computes its sum modulo `2 ^ 32`. -/
theorem toNat_foldl_length (sg : List UInt32) (sz : UInt32) :
    (sg.foldl (fun sz length => sz + length) sz).toNat =
      (sz.toNat + (sg.map UInt32.toNat).sum) % 2 ^ 32 := by
  induction sg generalizing sz with
  | nil => exact (Nat.mod_eq_of_lt sz.toNat_lt).symm
  | cons length sg ih =>
    rw [List.foldl_cons, ih, UInt32.toNat_add, Nat.mod_add_mod, List.map_cons, List.sum_cons,
      Nat.add_assoc]

theorem toNat_sz : data.sz.toNat = data.listed % 2 ^ 32 := by
  rw [sz, toNat_foldl_length, UInt32.toNat_zero, Nat.zero_add, listed]

theorem toNat_blocks_mul_blksz : (data.blocks * data.blksz).toNat = data.bytes % 2 ^ 32 := by
  rw [UInt32.toNat_mul, Nat.mul_comm, bytes]

/-- The data is above a limit of the host, or the two sizes differ, as far as 32 bits tell. -/
def Refused : Prop :=
  host.maxBlkSize < data.blksz ∨ host.maxBlkCount < data.blocks ∨
    host.maxReqSize.toNat < data.bytes % 2 ^ 32 ∨ data.listed % 2 ^ 32 ≠ data.bytes % 2 ^ 32

/-- The data is within the limits of the host, and the scatter list is of its size. -/
def Valid : Prop :=
  data.blksz ≤ host.maxBlkSize ∧ data.blocks ≤ host.maxBlkCount ∧
    data.bytes ≤ host.maxReqSize.toNat ∧ data.listed = data.bytes

theorem accepted_iff : data.accepted host = true ↔ ¬data.Refused host := by
  simp only [accepted, Refused, UInt32.lt_iff_toNat_lt, ← UInt32.toNat_inj, beq_iff_eq,
    toNat_blocks_mul_blksz, toNat_sz, Bool.if_false_left, Bool.and_eq_true, Bool.not_eq_true',
    decide_eq_false_iff_not]
  tauto

variable {data host}

/-- Data of less than `2 ^ 32` bytes, with such a list, is accepted only if it is valid. -/
theorem valid_of_lt (h : ¬data.Refused host) (hbytes : data.bytes < 2 ^ 32)
    (hlisted : data.listed < 2 ^ 32) : data.Valid host := by
  simp only [Refused, not_or, not_lt, UInt32.not_lt, not_not, Nat.mod_eq_of_lt hbytes,
    Nat.mod_eq_of_lt hlisted] at h
  exact h

/-- Valid data is not above the limit, which is a number of 32 bits. -/
theorem Valid.lt (h : data.Valid host) : data.bytes < 2 ^ 32 ∧ data.listed < 2 ^ 32 := by
  obtain ⟨-, -, hbytes, hlisted⟩ := h
  have hlimit := host.maxReqSize.toNat_lt
  omega

end MmcData

/-! ### The validation of a request -/

namespace Objects

variable (o : Objects) (host : HostLimits) (mrq : ℕ) (r : MmcRequest)

@[simp] theorem data_setCommand (a : ℕ) (c : MmcCommand) : (o.setCommand a c).data = o.data := rfl

/-- The links of a command change no data. -/
@[simp] theorem data_linkCommand (a : Option ℕ) : (o.linkCommand mrq a).data = o.data := by
  cases a <;> rfl

@[simp] theorem data_linkCmd : (o.linkCmd mrq r).data = o.data := by
  rw [linkCmd]
  cases r.cmd <;> rfl

/-- The requests that are accepted. -/
theorem mmcMrqPrep_eq_zero_iff {d : ℕ} (hd : r.data = some d) :
    (o.mmcMrqPrep host mrq r).2 = 0 ↔ ¬(o.data d).Refused host := by
  have hne : -einval ≠ 0 := by decide
  rw [← MmcData.accepted_iff]
  simp only [mmcMrqPrep, hd, data_linkCommand, data_linkCmd, apply_ite Prod.snd]
  split_ifs with haccepted
  · exact iff_of_true rfl haccepted
  · exact iff_of_false hne haccepted

/-- **A rejected request.** No field of any data is changed. -/
theorem data_of_rejected (h : (o.mmcMrqPrep host mrq r).2 ≠ 0) :
    (o.mmcMrqPrep host mrq r).1.data = o.data := by
  cases hd : r.data with
  | none => simp [mmcMrqPrep, hd] at h
  | some d =>
    have hrefused := mt (mmcMrqPrep_eq_zero_iff o host mrq r hd).mpr h
    rw [← MmcData.accepted_iff] at hrefused
    simp only [mmcMrqPrep, hd, data_linkCommand, data_linkCmd, if_neg hrefused]

/-- The data of an accepted request has no error, and is linked to the request and to its stop
command. -/
theorem data_of_accepted {d : ℕ} (hd : r.data = some d)
    (h : (o.mmcMrqPrep host mrq r).2 = 0) :
    (o.mmcMrqPrep host mrq r).1.data d =
      { o.data d with error := 0, mrq := some mrq, stop := r.stop <|> (o.data d).stop } := by
  have haccepted : (o.data d).accepted host = true :=
    (MmcData.accepted_iff _ _).mpr ((mmcMrqPrep_eq_zero_iff o host mrq r hd).mp h)
  simp only [mmcMrqPrep, hd, data_linkCommand, data_linkCmd, if_pos haccepted, linkData]
  cases r.stop <;> simp [setData]

/-- The validation is the one of `mmc_wait_for_req`, on what that reads of the data. -/
theorem mmcMrqPrep_snd_eq {caps : HostCaps} {m : Mrq} (st : Status)
    (hsize : caps.maxBlkSize = host.maxBlkSize.toNat)
    (hcount : caps.maxBlkCount = host.maxBlkCount.toNat)
    (hreq : caps.maxReqSize = host.maxReqSize.toNat)
    (hdata : m.data = r.data.map fun d => (o.data d).view) :
    (o.mmcMrqPrep host mrq r).2 = 0 ↔ (Mmc.mmcMrqPrep caps m st).2 = 0 := by
  rw [mmcMrqPrep_snd_eq_zero_iff, Accepts, hdata]
  cases hd : r.data with
  | none => simp [mmcMrqPrep, hd]
  | some d =>
    rw [mmcMrqPrep_eq_zero_iff o host mrq r hd]
    simp only [Option.map_some, Option.mem_def, Option.some.injEq, forall_eq', MmcData.Refused,
      MmcData.view, MmcData.bytes, MmcData.listed, hsize, hcount, hreq, UInt32.lt_iff_toNat_lt,
      Nat.mul_comm (o.data d).blocks.toNat, not_or, not_lt, not_not]

/-- An accepted data request is valid in exact numbers, and a rejected one keeps the error and the
link of its data. -/
structure PrepExact : Prop where
  accepted : ∀ d, r.data = some d → (o.mmcMrqPrep host mrq r).2 = 0 → (o.data d).Valid host
  rejected : ∀ d, r.data = some d → (o.mmcMrqPrep host mrq r).2 ≠ 0 →
    ((o.mmcMrqPrep host mrq r).1.data d).error = (o.data d).error ∧
    ((o.mmcMrqPrep host mrq r).1.data d).mrq = (o.data d).mrq

/-- **The validation of a request.** -/
theorem prepExact_iff : PrepExact o host mrq r ↔ ∀ d, r.data = some d →
    (o.data d).Refused host ∨ (o.data d).bytes < 2 ^ 32 ∧ (o.data d).listed < 2 ^ 32 := by
  constructor
  · intro h d hd
    by_cases hrefused : (o.data d).Refused host
    · exact .inl hrefused
    · have hzero := (mmcMrqPrep_eq_zero_iff o host mrq r hd).mpr hrefused
      exact .inr (h.accepted d hd hzero).lt
  · intro h
    refine ⟨fun d hd hzero => ?_, fun d hd hne => ?_⟩
    · have hrefused := (mmcMrqPrep_eq_zero_iff o host mrq r hd).mp hzero
      obtain ⟨hbytes, hlisted⟩ := (h d hd).resolve_left hrefused
      exact MmcData.valid_of_lt hrefused hbytes hlisted
    · have hkept := data_of_rejected o host mrq r hne
      exact ⟨by rw [hkept], by rw [hkept]⟩

/-- **A wrapped size.** The size of `2 ^ 16` blocks of `2 ^ 16` bytes wraps to zero, and with an
empty list the request is accepted, by a host that takes at most `2 ^ 19` bytes. -/
theorem prepExact_wrapped :
    ¬PrepExact ⟨fun _ => ⟨0, none, none⟩, fun _ => ⟨65536, 65536, [], 0, none, none⟩⟩
      ⟨65536, 65536, 524288⟩ 1 ⟨some 2, none, some 3, none⟩ := by
  intro h
  obtain ⟨-, -, hbytes, -⟩ := h.accepted 3 rfl (by decide)
  exact absurd hbytes (by decide)

end Objects

end LinuxDriver.Mmc
