import LinuxDriver.Buffer
import LinuxDriver.Kernel
import LinuxDriver.LittleEndian

/-!
# The conversion of the ADC

`gec6818_adc_ioctl` of `adc-drv/adc-drv.c` selects a channel in the control register, sets the
prescaler, starts a conversion, waits until the hardware ends it, and copies the voltage to the
caller. Each step reads a register and writes it back with some bits set or cleared.

A command that is not known sets the result to `-EINVAL` and goes on like the others, and the result
is then overwritten by that of `copy_to_user`. That is the number of bytes left, which is never
negative, so that a failed copy is not reported as `-EFAULT`.

## Main definitions

* `AdcState`, `AdcEnv`: the registers and the memory of the caller, and what the hardware decides.
* `gec6818AdcIoctl`.
* `ControlFramed`, `PrescalerFramed`, `AdcFramed`: what a conversion may change, and its results.

## Main results

* `controlFramed_of_selected`, `prescalerFramed`: the registers after a conversion.
* `adcFramed_iff`: the conversion is framed exactly for a known command with a complete copy.
-/

namespace LinuxDriver

/-! ### The registers -/

/-- The control register and the prescaler, and the memory of the caller. -/
@[ext] structure AdcState where
  con : BitVec 32
  pre : BitVec 32
  user : Buffer UInt8

/-- What is decided elsewhere: whether a conversion has ended before the driver's `k`-th read of the
control register, how many polls find the conversion of the driver running, the data register, and
how many of the four bytes `copy_to_user` leaves. -/
structure AdcEnv where
  ended : ℕ → Bool
  polls : ℕ
  dat : BitVec 32
  left : ℕ
  left_le : left ≤ 4

/-- `_IOR('A', nr, unsigned long)`, where `unsigned long` has `size` bytes. -/
def adcCommand (size : ℕ) (nr : BitVec 32) : BitVec 32 :=
  2#32 <<< 30 ||| BitVec.ofNat 32 size <<< 16 ||| 0x41#32 <<< 8 ||| nr

/-- `GEC6818_ADC_IN0` -/
def gec6818AdcIn0 (size : ℕ) : BitVec 32 := adcCommand size 1

/-- `GEC6818_ADC_IN1` -/
def gec6818AdcIn1 (size : ℕ) : BitVec 32 := adcCommand size 2

/-- `ioread32(adc_con_va)`, the `k`-th one. The end of a conversion clears bit 0. -/
def AdcEnv.readCon (env : AdcEnv) (k : ℕ) (con : BitVec 32) : BitVec 32 :=
  if env.ended k then con &&& ~~~(1#32 <<< 0) else con

/-- `while (ioread32(adc_con_va) & (1 << 0));` where the conversion ends after some polls. -/
def waitEnd : ℕ → BitVec 32 → BitVec 32
  | 0, con => con &&& ~~~(1#32 <<< 0)
  | polls + 1, con => if con &&& 1#32 <<< 0 = 0 then con else waitEnd polls con

/-- The `switch` of `gec6818_adc_ioctl`: the control register, and `ret`. -/
def selectChannel (size : ℕ) (env : AdcEnv) (cmd con : BitVec 32) : BitVec 32 × ℤ :=
  if cmd = gec6818AdcIn0 size then (env.readCon 0 con &&& ~~~(7#32 <<< 3), 0)
  else if cmd = gec6818AdcIn1 size then
    let con := env.readCon 0 con &&& ~~~(7#32 <<< 3)
    (env.readCon 1 con ||| 1#32 <<< 3, 0)
  else (con, -einval)

/-- `gec6818_adc_ioctl`: the state, and the result. -/
def gec6818AdcIoctl (size : ℕ) (env : AdcEnv) (cmd : BitVec 32) (arg : ℕ) (s : AdcState) :
    AdcState × ℤ :=
  let selected := selectChannel size env cmd s.con
  let con := env.readCon 2 selected.1 &&& ~~~(1#32 <<< 2)
  let pre := s.pre &&& ~~~(0x3ff#32 <<< 0)
  let pre := pre ||| 199#32
  let pre := pre ||| 1#32 <<< 15
  let con := env.readCon 3 con ||| 1#32 <<< 0
  let con := waitEnd env.polls con
  let adcVal := env.dat &&& 0xfff#32
  let pre := pre &&& ~~~(1#32 <<< 15)
  let con := con ||| 1#32 <<< 2
  let adcVol := adcVal.toNat * 1800 / 4095
  let user := s.user.store arg ((leBytes 4 adcVol).take (4 - env.left))
  -- the `ret` of the `switch` is overwritten
  let ret : ℤ := env.left
  (⟨con, pre, user⟩, if ret < 0 then -efault else ret)

/-! ### The specification -/

/-- The channel of a known command. -/
def selectedChannel (size : ℕ) (cmd : BitVec 32) : Option (BitVec 3) :=
  if cmd = gec6818AdcIn0 size then some 0
  else if cmd = gec6818AdcIn1 size then some 1
  else none

/-- The control register has the channel in bits 5:3, the power off and no conversion running, and
is otherwise as before. -/
structure ControlFramed (channel : BitVec 3) (con con' : BitVec 32) : Prop where
  channel_eq : con'.extractLsb' 3 3 = channel
  power_off : con'.getLsbD 2 = true
  not_running : con'.getLsbD 0 = false
  others : ∀ i, i ≠ 0 → i ≠ 2 → ¬(3 ≤ i ∧ i ≤ 5) → con'.getLsbD i = con.getLsbD i

/-- The prescaler divides by 200, its clock is off, and it is otherwise as before. -/
structure PrescalerFramed (pre pre' : BitVec 32) : Prop where
  value_eq : pre'.extractLsb' 0 10 = 199
  clock_off : pre'.getLsbD 15 = false
  others : ∀ i, 10 ≤ i → i ≠ 15 → pre'.getLsbD i = pre.getLsbD i

/-- A known command frames both registers and reports a failed copy, and any other command is
refused and changes nothing. -/
structure AdcFramed (size : ℕ) (env : AdcEnv) (cmd : BitVec 32) (arg : ℕ) (s : AdcState) :
    Prop where
  registers : ∀ channel, selectedChannel size cmd = some channel →
    ControlFramed channel s.con (gec6818AdcIoctl size env cmd arg s).1.con ∧
    PrescalerFramed s.pre (gec6818AdcIoctl size env cmd arg s).1.pre
  refused : selectedChannel size cmd = none → gec6818AdcIoctl size env cmd arg s = (s, -einval)
  fault : (selectedChannel size cmd).isSome → env.left ≠ 0 →
    (gec6818AdcIoctl size env cmd arg s).2 = -efault

/-! ### Single bits -/

section Bits

variable (x : BitVec 32) (i : ℕ)

theorem getLsbD_one_shiftLeft {k : ℕ} (hk : k < 32) : (1#32 <<< k).getLsbD i = decide (i = k) := by
  rw [← BitVec.twoPow_eq, BitVec.getLsbD_twoPow]
  simp [hk, eq_comm]

theorem getLsbD_set {k : ℕ} (hk : k < 32) :
    (x ||| 1#32 <<< k).getLsbD i = if i = k then true else x.getLsbD i := by
  rw [BitVec.getLsbD_or, getLsbD_one_shiftLeft i hk]
  split_ifs with h <;> simp [h]

theorem getLsbD_clear {k : ℕ} (hk : k < 32) :
    (x &&& ~~~(1#32 <<< k)).getLsbD i = if i = k then false else x.getLsbD i := by
  rw [BitVec.getLsbD_and, BitVec.getLsbD_not, getLsbD_one_shiftLeft i hk]
  split_ifs with h
  · simp [h]
  · by_cases hi : i < 32
    · simp [h, hi]
    · simp [h, BitVec.getLsbD_of_ge x i (not_lt.mp hi)]

/-- A field of `n` bits from bit `k` on is cleared. -/
theorem getLsbD_clearField {n k : ℕ} (h : k + n ≤ 32) :
    (x &&& ~~~(BitVec.ofNat 32 (2 ^ n - 1) <<< k)).getLsbD i =
      if k ≤ i ∧ i < k + n then false else x.getLsbD i := by
  by_cases hi : i < 32
  · rw [BitVec.getLsbD_and, BitVec.getLsbD_not, BitVec.getLsbD_shiftLeft, BitVec.getLsbD_ofNat,
      Nat.testBit_two_pow_sub_one]
    split_ifs with hfield
    · have hsub : i - k < n := by omega
      simp [hi, hsub, not_lt.mpr hfield.1, show i - k < 32 by omega]
    · by_cases hk : i < k
      · simp [hi, hk]
      · have hsub : ¬i - k < n := by omega
        simp [hi, hk, hsub]
  · rw [BitVec.getLsbD_of_ge _ i (not_lt.mp hi), BitVec.getLsbD_of_ge x i (not_lt.mp hi), ite_self]

end Bits

/-! ### The control register -/

section Control

variable (env : AdcEnv)

/-- The hardware clears no bit but bit 0. -/
theorem getLsbD_readCon (k : ℕ) (con : BitVec 32) {i : ℕ} (hi : i ≠ 0) :
    (env.readCon k con).getLsbD i = con.getLsbD i := by
  rw [AdcEnv.readCon]
  split_ifs
  · rw [getLsbD_clear con i (by norm_num), if_neg hi]
  · rfl

/-- The wait ends when the bit is clear, and changes no other. -/
theorem getLsbD_waitEnd (polls : ℕ) (con : BitVec 32) (i : ℕ) :
    (waitEnd polls con).getLsbD i = if i = 0 then false else con.getLsbD i := by
  induction polls with
  | zero => exact getLsbD_clear con i (by norm_num)
  | succ polls ih =>
    rw [waitEnd]
    split_ifs with hclear hi hi
    · subst hi
      have hbit := congrArg (fun x : BitVec 32 => x.getLsbD 0) hclear
      simpa [getLsbD_one_shiftLeft 0 (by norm_num : 0 < 32)] using hbit
    · rfl
    · rw [ih, if_pos hi]
    · rw [ih, if_neg hi]

/-- The channel field after its selection. -/
theorem getLsbD_selectChannel {size : ℕ} {cmd : BitVec 32} {channel : BitVec 3}
    (h : selectedChannel size cmd = some channel) (con : BitVec 32) {i : ℕ} (hi : i ≠ 0) :
    (selectChannel size env cmd con).1.getLsbD i =
      if 3 ≤ i ∧ i < 3 + 3 then channel.getLsbD (i - 3) else con.getLsbD i := by
  have hfield : (env.readCon 0 con &&& ~~~(7#32 <<< 3)).getLsbD i =
      if 3 ≤ i ∧ i < 3 + 3 then false else con.getLsbD i := by
    rw [← getLsbD_readCon env 0 con hi]
    exact getLsbD_clearField (n := 3) (env.readCon 0 con) i (by norm_num)
  by_cases h0 : cmd = gec6818AdcIn0 size
  · rw [selectedChannel, if_pos h0] at h
    obtain rfl := Option.some.inj h
    have hzero : (0 : BitVec 3).getLsbD (i - 3) = false := BitVec.getLsbD_zero
    rw [selectChannel, if_pos h0, hzero]
    exact hfield
  · by_cases h1 : cmd = gec6818AdcIn1 size
    · rw [selectedChannel, if_neg h0, if_pos h1] at h
      obtain rfl := Option.some.inj h
      rw [selectChannel, if_neg h0, if_pos h1]
      refine (getLsbD_set _ i (by norm_num)).trans ?_
      rw [getLsbD_readCon env 1 _ hi, hfield]
      by_cases h3 : i = 3
      · simp [h3]
      · rw [if_neg h3]
        split_ifs with hin
        · have hne : i - 3 ≠ 0 := by omega
          simp [hne]
        · rfl
    · rw [selectedChannel, if_neg h0, if_neg h1] at h
      exact absurd h (by simp)

end Control

/-! ### A conversion -/

section Conversion

variable (size : ℕ) (env : AdcEnv) (cmd : BitVec 32) (arg : ℕ) (s : AdcState)

/-- The control register after a conversion, by its bits. -/
theorem getLsbD_con (i : ℕ) :
    (gec6818AdcIoctl size env cmd arg s).1.con.getLsbD i =
      if i = 2 then true else if i = 0 then false
      else (selectChannel size env cmd s.con).1.getLsbD i := by
  refine (getLsbD_set _ i (by norm_num)).trans ?_
  split_ifs with h2 h0
  · rfl
  · rw [getLsbD_waitEnd, if_pos h0]
  · rw [getLsbD_waitEnd, if_neg h0, getLsbD_set _ i (by norm_num), if_neg h0,
      getLsbD_readCon env 3 _ h0, getLsbD_clear _ i (by norm_num), if_neg h2,
      getLsbD_readCon env 2 _ h0]

/-- The prescaler after a conversion, by its bits. -/
theorem getLsbD_pre (i : ℕ) :
    (gec6818AdcIoctl size env cmd arg s).1.pre.getLsbD i =
      if i = 15 then false else ((if i < 10 then false else s.pre.getLsbD i) ||
        (199#32).getLsbD i) := by
  refine (getLsbD_clear _ i (by norm_num)).trans ?_
  split_ifs with h15 h10
  · rfl
  · rw [getLsbD_set _ i (by norm_num), if_neg h15, BitVec.getLsbD_or]
    congr 1
    exact (getLsbD_clearField (n := 10) s.pre i (by norm_num)).trans (if_pos (by omega))
  · rw [getLsbD_set _ i (by norm_num), if_neg h15, BitVec.getLsbD_or]
    congr 1
    exact (getLsbD_clearField (n := 10) s.pre i (by norm_num)).trans (if_neg (by omega))

/-- **The control register after a conversion.** -/
theorem controlFramed_of_selected {channel : BitVec 3}
    (h : selectedChannel size cmd = some channel) :
    ControlFramed channel s.con (gec6818AdcIoctl size env cmd arg s).1.con where
  channel_eq := by
    refine BitVec.eq_of_getLsbD_eq fun i hi => ?_
    have h0 : 3 + i ≠ 0 := by omega
    have h2 : 3 + i ≠ 2 := by omega
    rw [BitVec.getLsbD_extractLsb', getLsbD_con, if_neg h2, if_neg h0,
      getLsbD_selectChannel env h s.con h0, if_pos (by omega), Nat.add_sub_cancel_left]
    simp [hi]
  power_off := by rw [getLsbD_con, if_pos rfl]
  not_running := by rw [getLsbD_con, if_neg (by norm_num), if_pos rfl]
  others i h0 h2 hfield := by
    rw [getLsbD_con, if_neg h2, if_neg h0, getLsbD_selectChannel env h s.con h0,
      if_neg (by omega)]

/-- The low bits of 200 minus one: there is none above them. -/
theorem getLsbD_divider (i : ℕ) (h : 10 ≤ i) : (199#32).getLsbD i = false := by
  have hlt : 199 < 2 ^ i := (by norm_num : 199 < 2 ^ 10).trans_le
    (Nat.pow_le_pow_right (by norm_num) h)
  rw [BitVec.getLsbD_ofNat, Nat.testBit_lt_two_pow hlt, Bool.and_false]

/-- **The prescaler after a conversion.** -/
theorem prescalerFramed :
    PrescalerFramed s.pre (gec6818AdcIoctl size env cmd arg s).1.pre where
  value_eq := by
    refine BitVec.eq_of_getLsbD_eq fun i hi => ?_
    have h15 : i ≠ 15 := by omega
    have h32 : i < 32 := by omega
    have hvalue : (199 : BitVec 10).getLsbD i = (decide (i < 10) && Nat.testBit 199 i) :=
      BitVec.getLsbD_ofNat 10 199 i
    rw [BitVec.getLsbD_extractLsb', Nat.zero_add, getLsbD_pre, if_neg h15, if_pos hi,
      Bool.false_or, BitVec.getLsbD_ofNat, hvalue]
    simp [hi, h32]
  clock_off := by rw [getLsbD_pre, if_pos rfl]
  others i h10 h15 := by
    rw [getLsbD_pre, if_neg h15, if_neg (by omega), getLsbD_divider i h10, Bool.or_false]

/-- The result is the number of bytes that the copy left, whatever the command is. -/
theorem gec6818AdcIoctl_snd : (gec6818AdcIoctl size env cmd arg s).2 = env.left := by
  change (if (env.left : ℤ) < 0 then -efault else (env.left : ℤ)) = env.left
  exact if_neg (not_lt.mpr (Int.natCast_nonneg env.left))

/-- **The conversion ioctl.** -/
theorem adcFramed_iff :
    AdcFramed size env cmd arg s ↔ (selectedChannel size cmd).isSome ∧ env.left = 0 := by
  have hne (n : ℤ) (hn : n < 0) : (gec6818AdcIoctl size env cmd arg s).2 ≠ n := by
    rw [gec6818AdcIoctl_snd]
    omega
  constructor
  · intro h
    have hknown : (selectedChannel size cmd).isSome := by
      by_contra hunknown
      have hrefused := h.refused (Option.not_isSome_iff_eq_none.mp hunknown)
      exact hne (-einval) (by decide) (congrArg Prod.snd hrefused)
    refine ⟨hknown, ?_⟩
    by_contra hleft
    exact hne (-efault) (by decide) (h.fault hknown hleft)
  · rintro ⟨hknown, hleft⟩
    refine ⟨fun channel hchannel => ?_, fun hunknown => ?_, fun _ hne => absurd hleft hne⟩
    · exact ⟨controlFramed_of_selected size env cmd arg s hchannel, prescalerFramed ..⟩
    · rw [hunknown] at hknown
      exact absurd hknown (by simp)

end Conversion

/-- The registers at zero, and a conversion that ends after the first poll. -/
def adcSample : AdcState := ⟨0, 0, fun _ => 0⟩

/-- **An unknown command.** It returns zero, after a conversion that has written both registers. -/
theorem gec6818AdcIoctl_unknown :
    (gec6818AdcIoctl 4 ⟨fun _ => false, 1, 0, 0, by decide⟩ 0 0 adcSample).1.con = 4 ∧
    (gec6818AdcIoctl 4 ⟨fun _ => false, 1, 0, 0, by decide⟩ 0 0 adcSample).1.pre = 199 ∧
    (gec6818AdcIoctl 4 ⟨fun _ => false, 1, 0, 0, by decide⟩ 0 0 adcSample).2 = 0 ∧
    ¬AdcFramed 4 ⟨fun _ => false, 1, 0, 0, by decide⟩ 0 0 adcSample := by
  refine ⟨by decide, by decide, by decide, fun h => ?_⟩
  exact absurd (congrArg Prod.snd (h.refused (by decide))) (by decide)

end LinuxDriver
