import LinuxDriver.Kernel
import LinuxDriver.Lts

/-!
# The current partition of an eMMC card

An eMMC card shows one of its partitions at a time, chosen by the access bits of its register
`PARTITION_CONFIG`. The driver keeps two copies of the choice: `card->ext_csd.part_config`, from
which it builds the next value of the register, and `part_curr` of the main `mmc_blk_data`, which
lets it skip a switch. While the card shows its RPMB partition, re-tuning is paused.

Three functions write the copies. `mmc_blk_part_switch` keeps them together on every path. An
`ioctl` that writes `PARTITION_CONFIG` itself updates the copies behind it, but not the pause of
re-tuning, and not after a data error. A reset of the card takes it back to the main partition, and
leaves the cached register as it was when `mmc_init_card` fails early.

## Main definitions

* `PartType`: the access bits of a partition.
* `PartState`: the card, the two copies, and the flags of re-tuning and of the command queue.
* `mmcBlkPartSwitch`, `mmcBlkIoctlCmd`, `mmcBlkReset`.
* `partitions`: the runs of the three functions.
* `Consistent`: the copies agree with the card, and re-tuning is paused for RPMB only.
* `KeepsTrack`: the condition on a step.

## Main results

* `Consistent.partSwitch`: a switch keeps the bookkeeping, whatever fails in it.
* `consistent_next_iff`: a step keeps the bookkeeping exactly when it meets the condition.
* `always_consistent_iff`: so does a run.
-/

namespace LinuxDriver.Mmc

/-! ### Partitions -/

/-- `EXT_CSD_PART_CONFIG_ACC_MASK` -/
def accMask : ℕ := 0x7

/-- `EXT_CSD_PART_CONFIG_ACC_RPMB` -/
def accRpmb : ℕ := 0x3

/-- The access bits of a value of `PARTITION_CONFIG`. -/
def acc (config : ℕ) : ℕ := config &&& accMask

/-- The value of `PARTITION_CONFIG` with other access bits. -/
def withAcc (config bits : ℕ) : ℕ := (config &&& (0xff - accMask)) ||| bits

/-- The `part_type` of a disk: `0` for the main partition, `1` and `2` for the boot partitions, `3`
for RPMB, and `4` to `7` for the general purpose partitions. -/
structure PartType where
  bits : ℕ
  bits_le : bits ≤ accMask

/-- `part_type` of the main `mmc_blk_data`. -/
def mainPartType : ℕ := 0

theorem acc_eq_mod (config : ℕ) : acc config = config % 8 :=
  Nat.and_two_pow_sub_one_eq_mod config 3

theorem acc_of_le {n : ℕ} (h : n ≤ accMask) : acc n = n := by
  rw [acc_eq_mod]
  exact Nat.mod_eq_of_lt (Nat.lt_succ_of_le h)

@[simp] theorem acc_withAcc (config : ℕ) (target : PartType) :
    acc (withAcc config target.bits) = target.bits := by
  have hclear : (config &&& (0xff - accMask)) &&& accMask = 0 := by
    rw [Nat.and_assoc]
    exact Nat.and_zero _
  rw [acc, withAcc, Nat.and_or_distrib_right, hclear, Nat.zero_or]
  exact acc_of_le target.bits_le

@[simp] theorem acc_withAcc_main (config : ℕ) : acc (withAcc config mainPartType) = mainPartType :=
  acc_withAcc config ⟨mainPartType, Nat.zero_le _⟩

/-- The card, what the driver knows of it, and the flags that a switch reads. `cardAcc` is the
partition that the card shows. -/
structure PartState where
  cardAcc : ℕ
  partConfig : ℕ
  partCurr : ℕ
  retunePaused : Bool
  cmdqEn : Bool
  reenableCmdq : Bool

/-! ### Switching -/

/-- The results of the commands that a switch may send. -/
structure SwitchResults where
  cmdqDisable : ℤ
  switch : ℤ
  cmdqEnable : ℤ

/-- `mmc_blk_part_switch_pre` -/
def mmcBlkPartSwitchPre (s : PartState) (partType : ℕ) (r : SwitchResults) : ℤ × PartState :=
  if partType = accRpmb then
    if s.cmdqEn then
      if r.cmdqDisable ≠ 0 then (r.cmdqDisable, s)
      else (0, { s with cmdqEn := false, retunePaused := true })
    else (0, { s with retunePaused := true })
  else (0, s)

/-- `mmc_blk_part_switch_post` -/
def mmcBlkPartSwitchPost (s : PartState) (partType : ℕ) (r : SwitchResults) : ℤ × PartState :=
  if partType = accRpmb then
    if s.reenableCmdq && !s.cmdqEn then
      (r.cmdqEnable, { s with retunePaused := false, cmdqEn := r.cmdqEnable = 0 })
    else (0, { s with retunePaused := false })
  else (0, s)

/-- `mmc_blk_part_switch`, where `mmcCard` is `mmc_card_mmc(card)`. The card shows the new
partition when `mmc_switch` succeeds. -/
def mmcBlkPartSwitch (mmcCard : Bool) (s : PartState) (partType : ℕ) (r : SwitchResults) :
    ℤ × PartState :=
  if s.partCurr = partType then (0, s)
  else if mmcCard then
    let pre := mmcBlkPartSwitchPre s partType r
    if pre.1 ≠ 0 then pre
    else
      let partConfig := withAcc s.partConfig partType
      if r.switch ≠ 0 then (r.switch, (mmcBlkPartSwitchPost pre.2 partType r).2)
      else
        let switched := { pre.2 with cardAcc := acc partConfig, partConfig := partConfig }
        let post := mmcBlkPartSwitchPost switched s.partCurr r
        (post.1, { post.2 with partCurr := partType })
  else (0, { s with partCurr := partType })

/-! ### The `ioctl` -/

def mmcSwitch : ℕ := 6
def extCsdSanitizeStart : ℕ := 165
def extCsdPartConfig : ℕ := 179

/-- The command of a user, as far as `__mmc_blk_ioctl_cmd` looks at it. -/
structure IoctlCmd where
  opcode : ℕ
  arg : ℕ
  isAcmd : Bool

/-- `MMC_EXTRACT_INDEX_FROM_ARG` -/
def IoctlCmd.index (cmd : IoctlCmd) : ℕ := (cmd.arg &&& 0x00ff0000) >>> 16

/-- `MMC_EXTRACT_VALUE_FROM_ARG` -/
def IoctlCmd.value (cmd : IoctlCmd) : ℕ := (cmd.arg &&& 0x0000ff00) >>> 8

/-- The access mode of the argument of `MMC_SWITCH`. -/
def IoctlCmd.mode (cmd : IoctlCmd) : ℕ := (cmd.arg &&& 0x03000000) >>> 24

/-- What `MMC_SWITCH` does to the access bits: it sets the bits of the value, clears them, or
writes the value. -/
def switchAcc (mode value bits : ℕ) : ℕ :=
  match mode with
  | 1 => bits ||| acc value
  | 2 => bits &&& (accMask - acc value)
  | 3 => acc value
  | _ => bits

/-- The partition that the card shows after a command that it has carried out. -/
def IoctlCmd.cardAcc (cmd : IoctlCmd) (bits : ℕ) : ℕ :=
  if cmd.opcode = mmcSwitch ∧ cmd.index = extCsdPartConfig ∧ cmd.isAcmd = false then
    switchAcc cmd.mode cmd.value bits
  else bits

/-- The results of what `__mmc_blk_ioctl_cmd` calls, and the errors of the command and its data. -/
structure IoctlResults where
  partSwitch : SwitchResults
  appCmd : ℤ
  cmdError : ℤ
  dataError : ℤ

/-- `__mmc_blk_ioctl_cmd`: what it leaves of the bookkeeping, with the partition `target` of the
device that it was called on. -/
def mmcBlkIoctlCmd (mmcCard : Bool) (s : PartState) (target : PartType) (cmd : IoctlCmd)
    (r : IoctlResults) : PartState :=
  let switch := mmcBlkPartSwitch mmcCard s target.bits r.partSwitch
  let s := switch.2
  if switch.1 ≠ 0 then s
  else if cmd.isAcmd ∧ r.appCmd ≠ 0 then s
  else if cmd.index = extCsdSanitizeStart ∧ cmd.opcode = mmcSwitch then s
  else if r.cmdError ≠ 0 then s
  else
    let s := { s with cardAcc := cmd.cardAcc s.cardAcc }
    if r.dataError ≠ 0 then s
    else if cmd.index = extCsdPartConfig ∧ cmd.opcode = mmcSwitch then
      { s with partConfig := cmd.value, partCurr := acc cmd.value }
    else s

/-! ### The reset -/

/-- The results of a reset: whether the bus is alive and has `hw_reset`, as that of an eMMC card
has; whether `mmc_init_card` gets to the selection of the user default partition, what it returns,
and what it leaves of the flags of the command queue; and the results of the switch after it. -/
structure ResetResults where
  supported : Bool
  reached : Bool
  initCard : ℤ
  cmdqEn : Bool
  reenableCmdq : Bool
  partSwitch : SwitchResults

/-- What a reset leaves: the card shows its main partition, `mmc_set_initial_state` has ended the
pause of re-tuning, and `mmc_init_card` has cleared the cached access bits if it got there. -/
def PartState.afterReset (s : PartState) (r : ResetResults) : PartState where
  cardAcc := mainPartType
  partConfig := if r.reached then withAcc s.partConfig mainPartType else s.partConfig
  partCurr := s.partCurr
  retunePaused := false
  cmdqEn := r.cmdqEn
  reenableCmdq := r.reenableCmdq

/-- `mmc_hw_reset` -/
def mmcHwReset (s : PartState) (r : ResetResults) : ℤ × PartState :=
  if r.supported = false then (-eopnotsupp, s) else (r.initCard, s.afterReset r)

/-- `mmc_blk_reset` for a disk with the partition `target` and the bits `resetDone`: its result,
the new bits, and what it leaves of the bookkeeping. -/
def mmcBlkReset (mmcCard : Bool) (s : PartState) (resetDone type : ℕ) (target : PartType)
    (r : ResetResults) : ℤ × ℕ × PartState :=
  if resetDone &&& type ≠ 0 then (-eexist, resetDone, s)
  else
    let hw := mmcHwReset s r
    if hw.1 ≠ -eopnotsupp then
      let switch := mmcBlkPartSwitch mmcCard { hw.2 with partCurr := mainPartType } target.bits
        r.partSwitch
      (if switch.1 ≠ 0 then -enodev else hw.1, resetDone ||| type, switch.2)
    else (hw.1, resetDone ||| type, hw.2)

/-! ### Runs -/

inductive PartAction
  | partSwitch (target : PartType) (r : SwitchResults)
  | ioctl (target : PartType) (cmd : IoctlCmd) (r : IoctlResults)
  | reset (resetDone type : ℕ) (target : PartType) (r : ResetResults)

def PartState.next (s : PartState) : PartAction → PartState
  | .partSwitch target r => (mmcBlkPartSwitch true s target.bits r).2
  | .ioctl target cmd r => mmcBlkIoctlCmd true s target cmd r
  | .reset resetDone type target r => (mmcBlkReset true s resetDone type target r).2.2

/-- The runs of the three functions on an eMMC card, from the state `s`. -/
def partitions (s : PartState) : Lts PartState PartAction := ⟨s, fun s a => some (s.next a)⟩

/-- The two copies name the partition that the card shows, and re-tuning is paused if and only if
it is the RPMB partition. -/
structure Consistent (s : PartState) : Prop where
  card : s.partCurr = s.cardAcc
  cached : s.partCurr = acc s.partConfig
  paused : s.retunePaused = true ↔ s.partCurr = accRpmb

/-! ### The condition on a step -/

/-- No step of a switch fails: the command queue can be disabled for RPMB, the card switches, and
the command queue can be enabled again after RPMB. -/
def SwitchSucceeds (s : PartState) (target : PartType) (r : SwitchResults) : Prop :=
  s.partCurr = target.bits ∨
    ((target.bits = accRpmb → s.cmdqEn = true → r.cmdqDisable = 0) ∧ r.switch = 0 ∧
      (s.partCurr = accRpmb → s.reenableCmdq = true → s.cmdqEn = false → r.cmdqEnable = 0))

/-- The command of the `ioctl` is sent, and the card carries it out. -/
def CmdSucceeds (s : PartState) (target : PartType) (cmd : IoctlCmd) (r : IoctlResults) : Prop :=
  SwitchSucceeds s target r.partSwitch ∧ (cmd.isAcmd = true → r.appCmd = 0) ∧ r.cmdError = 0

/-- What keeps the bookkeeping. An `ioctl` whose switch of the partition succeeds must not move the
card, or it must move it, without a data error, to the partition of its value, where neither
partition is RPMB. A reset must not fail before `mmc_init_card` has selected the main partition,
nor with `-EOPNOTSUPP`, unless the card showed the main partition; the first is mended by a switch
that succeeds. -/
def KeepsTrack (s : PartState) : PartAction → Prop
  | .partSwitch _ _ => True
  | .ioctl target cmd r =>
    cmd.opcode = mmcSwitch → cmd.index = extCsdPartConfig → CmdSucceeds s target cmd r →
      (cmd.cardAcc target.bits = target.bits ∧
        (r.dataError ≠ 0 ∨ acc cmd.value = target.bits)) ∨
      (r.dataError = 0 ∧ cmd.cardAcc target.bits = acc cmd.value ∧
        target.bits ≠ accRpmb ∧ acc cmd.value ≠ accRpmb)
  | .reset resetDone type target r =>
    resetDone &&& type ≠ 0 ∨ r.supported = false ∨ s.partCurr = mainPartType ∨
      (r.initCard ≠ -eopnotsupp ∧ (r.reached = true ∨
        (target.bits ≠ mainPartType ∧ r.partSwitch.switch = 0 ∧
          (target.bits = accRpmb → r.cmdqEn = true → r.partSwitch.cmdqDisable = 0))))

instance (s : PartState) (target : PartType) (r : SwitchResults) :
    Decidable (SwitchSucceeds s target r) :=
  inferInstanceAs (Decidable (_ ∨ _))

instance (s : PartState) (target : PartType) (cmd : IoctlCmd) (r : IoctlResults) :
    Decidable (CmdSucceeds s target cmd r) :=
  inferInstanceAs (Decidable (_ ∧ _))

instance (s : PartState) : (a : PartAction) → Decidable (KeepsTrack s a)
  | .partSwitch _ _ => isTrue trivial
  | .ioctl _ _ _ => inferInstanceAs (Decidable (_ → _))
  | .reset _ _ _ _ => inferInstanceAs (Decidable (_ ∨ _))

/-! ### The switch -/

section Switch

variable {s : PartState} {target : PartType} {r : SwitchResults}

theorem mmcBlkPartSwitchPre_eq (s : PartState) (partType : ℕ) (r : SwitchResults) :
    mmcBlkPartSwitchPre s partType r =
      if partType = accRpmb ∧ s.cmdqEn = true ∧ r.cmdqDisable ≠ 0 then (r.cmdqDisable, s)
      else (0, { s with
        cmdqEn := s.cmdqEn && partType ≠ accRpmb
        retunePaused := s.retunePaused || partType = accRpmb }) := by
  obtain ⟨card, config, curr, paused, en, reen⟩ := s
  by_cases hrpmb : partType = accRpmb
  · cases en <;> simp [mmcBlkPartSwitchPre, hrpmb]
  · simp [mmcBlkPartSwitchPre, hrpmb]

theorem mmcBlkPartSwitchPost_eq (s : PartState) (partType : ℕ) (r : SwitchResults) :
    mmcBlkPartSwitchPost s partType r =
      (if partType = accRpmb ∧ s.reenableCmdq = true ∧ s.cmdqEn = false then r.cmdqEnable else 0,
        { s with
          retunePaused := s.retunePaused && partType ≠ accRpmb
          cmdqEn := s.cmdqEn ||
            (partType = accRpmb && s.reenableCmdq && decide (r.cmdqEnable = 0)) }) := by
  obtain ⟨card, config, curr, paused, en, reen⟩ := s
  by_cases hrpmb : partType = accRpmb
  · cases en <;> cases reen <;> simp [mmcBlkPartSwitchPost, hrpmb]
  · simp [mmcBlkPartSwitchPost, hrpmb]

/-- The commands before the change of `part_curr` succeed. -/
def Switches (cmdqEn : Bool) (target : PartType) (r : SwitchResults) : Prop :=
  r.switch = 0 ∧ (target.bits = accRpmb → cmdqEn = true → r.cmdqDisable = 0)

/-- A switch that gives up leaves the partition, and the pause unless it was for RPMB. -/
theorem mmcBlkPartSwitch_fails (hne : s.partCurr ≠ target.bits)
    (hfail : ¬Switches s.cmdqEn target r) :
    ∃ err s', err ≠ 0 ∧ mmcBlkPartSwitch true s target.bits r = (err, s') ∧
      s'.cardAcc = s.cardAcc ∧ s'.partConfig = s.partConfig ∧ s'.partCurr = s.partCurr ∧
      (s'.retunePaused = s.retunePaused ∨
        target.bits = accRpmb ∧ s'.retunePaused = false) := by
  rw [mmcBlkPartSwitch, if_neg hne, if_pos rfl, mmcBlkPartSwitchPre_eq]
  by_cases hpre : target.bits = accRpmb ∧ s.cmdqEn = true ∧ r.cmdqDisable ≠ 0
  · refine ⟨r.cmdqDisable, s, hpre.2.2, ?_, rfl, rfl, rfl, .inl rfl⟩
    simp only [if_pos hpre]
    exact if_pos hpre.2.2
  · have hswitch : r.switch ≠ 0 := fun hzero =>
      hfail ⟨hzero, fun hrpmb hen => not_not.mp fun hdis => hpre ⟨hrpmb, hen, hdis⟩⟩
    simp only [if_neg hpre, ne_eq, not_true_eq_false, if_false, if_pos hswitch,
      mmcBlkPartSwitchPost_eq]
    refine ⟨_, _, hswitch, rfl, rfl, rfl, rfl, ?_⟩
    by_cases hrpmb : target.bits = accRpmb
    · exact .inr ⟨hrpmb, by simp [hrpmb]⟩
    · exact .inl (by simp [hrpmb])

/-- A switch that goes through, whether or not the command queue can be enabled after it. -/
theorem mmcBlkPartSwitch_switches (hne : s.partCurr ≠ target.bits)
    (hswitches : Switches s.cmdqEn target r) :
    ∃ ret s', (ret = 0 ↔ (s.partCurr = accRpmb → s.reenableCmdq = true → s.cmdqEn = false →
        r.cmdqEnable = 0)) ∧
      mmcBlkPartSwitch true s target.bits r = (ret, s') ∧
      s'.cardAcc = target.bits ∧ acc s'.partConfig = target.bits ∧ s'.partCurr = target.bits ∧
      s'.retunePaused = ((s.retunePaused || target.bits = accRpmb) && s.partCurr ≠ accRpmb) := by
  have hpre : ¬(target.bits = accRpmb ∧ s.cmdqEn = true ∧ r.cmdqDisable ≠ 0) := fun h =>
    h.2.2 (hswitches.2 h.1 h.2.1)
  rw [mmcBlkPartSwitch, if_neg hne, if_pos rfl, mmcBlkPartSwitchPre_eq]
  simp only [if_neg hpre, ne_eq, not_true_eq_false, if_false, hswitches.1,
    mmcBlkPartSwitchPost_eq]
  refine ⟨_, _, ?_, rfl, acc_withAcc _ target, acc_withAcc _ target, rfl, rfl⟩
  by_cases hrpmb : s.partCurr = accRpmb
  · have htarget : target.bits ≠ accRpmb := fun h => hne (hrpmb.trans h.symm)
    simp [hrpmb, htarget]
  · simp [hrpmb]

/-- The switch reports success exactly when no step of it fails. -/
theorem mmcBlkPartSwitch_fst_eq_zero_iff (s : PartState) (target : PartType)
    (r : SwitchResults) :
    (mmcBlkPartSwitch true s target.bits r).1 = 0 ↔ SwitchSucceeds s target r := by
  by_cases heq : s.partCurr = target.bits
  · rw [mmcBlkPartSwitch, if_pos heq]
    exact iff_of_true rfl (.inl heq)
  by_cases hswitches : Switches s.cmdqEn target r
  · obtain ⟨ret, s', hret, hcall, -⟩ := mmcBlkPartSwitch_switches heq hswitches
    rw [hcall]
    refine hret.trans ⟨fun h => .inr ⟨hswitches.2, hswitches.1, h⟩, ?_⟩
    rintro (h | h)
    · exact absurd h heq
    · exact h.2.2
  · obtain ⟨err, s', herr, hcall, -⟩ := mmcBlkPartSwitch_fails heq hswitches
    rw [hcall]
    refine iff_of_false herr ?_
    rintro (h | h)
    · exact heq h
    · exact hswitches ⟨h.2.1, h.1⟩

/-- A switch that reports success ends with the partition that it was called for. -/
theorem mmcBlkPartSwitch_partCurr (h : (mmcBlkPartSwitch true s target.bits r).1 = 0) :
    (mmcBlkPartSwitch true s target.bits r).2.partCurr = target.bits := by
  by_cases heq : s.partCurr = target.bits
  · rw [mmcBlkPartSwitch, if_pos heq]
    exact heq
  by_cases hswitches : Switches s.cmdqEn target r
  · obtain ⟨ret, s', -, hcall, -, -, hcurr, -⟩ := mmcBlkPartSwitch_switches heq hswitches
    rw [hcall]
    exact hcurr
  · obtain ⟨err, s', herr, hcall, -⟩ := mmcBlkPartSwitch_fails heq hswitches
    rw [hcall] at h
    exact absurd h herr

/-- **A switch keeps the bookkeeping**, whatever fails in it. -/
theorem Consistent.partSwitch (h : Consistent s) :
    Consistent (mmcBlkPartSwitch true s target.bits r).2 := by
  by_cases heq : s.partCurr = target.bits
  · rw [mmcBlkPartSwitch, if_pos heq]
    exact h
  by_cases hswitches : Switches s.cmdqEn target r
  · obtain ⟨ret, s', -, hcall, hcard, hcached, hcurr, hpaused⟩ :=
      mmcBlkPartSwitch_switches heq hswitches
    rw [hcall]
    refine ⟨hcurr.trans hcard.symm, hcurr.trans hcached.symm, ?_⟩
    rw [hpaused, hcurr]
    by_cases hrpmb : s.partCurr = accRpmb
    · have htarget : target.bits ≠ accRpmb := fun h => heq (hrpmb.trans h.symm)
      simp [hrpmb, htarget]
    · have hrunning : s.retunePaused = false := by simpa [hrpmb] using h.paused
      simp [hrpmb, hrunning]
  · obtain ⟨err, s', -, hcall, hcard, hconfig, hcurr, hpaused⟩ :=
      mmcBlkPartSwitch_fails heq hswitches
    rw [hcall]
    refine ⟨hcurr.trans (h.card.trans hcard.symm), ?_, ?_⟩
    · rw [hcurr, hconfig]
      exact h.cached
    · rw [hcurr]
      rcases hpaused with hpaused | ⟨hrpmb, hpaused⟩
      · rw [hpaused]
        exact h.paused
      · rw [hpaused]
        exact iff_of_false Bool.false_ne_true fun h => heq (h.trans hrpmb.symm)

end Switch

/-! ### The `ioctl` -/

/-- The card moves only on a switch of `PARTITION_CONFIG`. -/
theorem IoctlCmd.cardAcc_of_not_switch {cmd : IoctlCmd}
    (h : ¬(cmd.index = extCsdPartConfig ∧ cmd.opcode = mmcSwitch)) (bits : ℕ) :
    cmd.cardAcc bits = bits :=
  if_neg fun hcmd => h ⟨hcmd.2.1, hcmd.1⟩

/-- **A switch of the user**, on a card that shows the partition `bits`: it moves the card to
`moved`, and without a data error the copies are set from `value`. -/
theorem consistent_userSwitch_iff {s : PartState} (h : Consistent s) {bits : ℕ}
    (hcurr : s.partCurr = bits) (moved value : ℕ) (dataError : ℤ) :
    Consistent (if dataError ≠ 0 then { s with cardAcc := moved }
        else { s with cardAcc := moved, partConfig := value, partCurr := acc value }) ↔
      (moved = bits ∧ (dataError ≠ 0 ∨ acc value = bits)) ∨
      (dataError = 0 ∧ moved = acc value ∧ bits ≠ accRpmb ∧ acc value ≠ accRpmb) := by
  have hpaused : s.retunePaused = true ↔ bits = accRpmb := hcurr ▸ h.paused
  by_cases hdata : dataError ≠ 0
  · rw [if_pos hdata]
    constructor
    · intro hafter
      exact .inl ⟨hafter.card.symm.trans hcurr, .inl hdata⟩
    · rintro (⟨hstays, -⟩ | ⟨hnone, -⟩)
      · exact ⟨hcurr.trans hstays.symm, h.cached, h.paused⟩
      · exact absurd hnone hdata
  · rw [if_neg hdata]
    constructor
    · intro hafter
      have hmoved : acc value = moved := hafter.card
      have hrpmb : bits = accRpmb ↔ acc value = accRpmb := hpaused.symm.trans hafter.paused
      by_cases hbits : bits = accRpmb
      · have hvalue : acc value = bits := (hrpmb.mp hbits).trans hbits.symm
        exact .inl ⟨hmoved.symm.trans hvalue, .inr hvalue⟩
      · exact .inr ⟨not_not.mp hdata, hmoved.symm, hbits, fun hvalue => hbits (hrpmb.mpr hvalue)⟩
    · rintro (⟨hstays, hvalue⟩ | ⟨-, hmoved, hbits, hvalue⟩)
      · have hvalue : acc value = bits := hvalue.resolve_left hdata
        exact ⟨hvalue.trans hstays.symm, rfl, by rw [hvalue]; exact hpaused⟩
      · exact ⟨hmoved.symm, rfl, iff_of_false (fun hp => hbits (hpaused.mp hp)) hvalue⟩

theorem consistent_ioctl_iff {s : PartState} (h : Consistent s) (target : PartType)
    (cmd : IoctlCmd) (r : IoctlResults) :
    Consistent (mmcBlkIoctlCmd true s target cmd r) ↔ KeepsTrack s (.ioctl target cmd r) := by
  have hswitch : Consistent (mmcBlkPartSwitch true s target.bits r.partSwitch).2 := h.partSwitch
  have hret := mmcBlkPartSwitch_fst_eq_zero_iff s target r.partSwitch
  have hcurr : (mmcBlkPartSwitch true s target.bits r.partSwitch).1 = 0 →
      (mmcBlkPartSwitch true s target.bits r.partSwitch).2.partCurr = target.bits :=
    mmcBlkPartSwitch_partCurr
  rw [mmcBlkIoctlCmd]
  generalize mmcBlkPartSwitch true s target.bits r.partSwitch = switch at hswitch hret hcurr ⊢
  obtain ⟨ret, s₁⟩ := switch
  dsimp only at hswitch hret hcurr ⊢
  by_cases hfail : ret ≠ 0
  · rw [if_pos hfail]
    exact iff_of_true hswitch fun _ _ hcmd => absurd (hret.mpr hcmd.1) hfail
  by_cases hacmd : cmd.isAcmd = true ∧ r.appCmd ≠ 0
  · rw [if_neg hfail, if_pos hacmd]
    exact iff_of_true hswitch fun _ _ hcmd => absurd (hcmd.2.1 hacmd.1) hacmd.2
  by_cases hsanitize : cmd.index = extCsdSanitizeStart ∧ cmd.opcode = mmcSwitch
  · rw [if_neg hfail, if_neg hacmd, if_pos hsanitize]
    refine iff_of_true hswitch fun _ hindex => ?_
    exact absurd (hsanitize.1.symm.trans hindex) (by decide)
  by_cases herror : r.cmdError ≠ 0
  · rw [if_neg hfail, if_neg hacmd, if_neg hsanitize, if_pos herror]
    exact iff_of_true hswitch fun _ _ hcmd => absurd hcmd.2.2 herror
  rw [if_neg hfail, if_neg hacmd, if_neg hsanitize, if_neg herror]
  by_cases hconfig : ¬(cmd.index = extCsdPartConfig ∧ cmd.opcode = mmcSwitch)
  · rw [if_neg hconfig, ite_self, cmd.cardAcc_of_not_switch hconfig]
    exact iff_of_true hswitch fun hopcode hindex => absurd ⟨hindex, hopcode⟩ hconfig
  -- the card has carried out the switch of the user
  have hconfig := not_not.mp hconfig
  have htarget : s₁.partCurr = target.bits := hcurr (not_not.mp hfail)
  have hcard : s₁.cardAcc = target.bits := hswitch.card.symm.trans htarget
  have hsends : CmdSucceeds s target cmd r :=
    ⟨hret.mp (not_not.mp hfail), fun hisAcmd => not_not.mp fun happ => hacmd ⟨hisAcmd, happ⟩,
      not_not.mp herror⟩
  have hcondition : KeepsTrack s (.ioctl target cmd r) ↔
      (cmd.cardAcc target.bits = target.bits ∧
        (r.dataError ≠ 0 ∨ acc cmd.value = target.bits)) ∨
      (r.dataError = 0 ∧ cmd.cardAcc target.bits = acc cmd.value ∧
        target.bits ≠ accRpmb ∧ acc cmd.value ≠ accRpmb) :=
    ⟨fun hkeeps => hkeeps hconfig.2 hconfig.1 hsends, fun hkeeps _ _ _ => hkeeps⟩
  rw [hcondition, hcard, if_pos hconfig]
  exact consistent_userSwitch_iff hswitch htarget _ _ _

/-! ### The reset -/

/-- The cached access bits after a reset are those of the main partition when `mmc_init_card` got to
them, or the card showed that partition before. -/
theorem Consistent.acc_afterReset {s : PartState} {r : ResetResults} (h : Consistent s)
    (hcached : r.reached = true ∨ s.partCurr = mainPartType) :
    acc (s.afterReset r).partConfig = mainPartType := by
  by_cases hreached : r.reached = true
  · rw [PartState.afterReset, if_pos hreached]
    exact acc_withAcc_main _
  · rw [PartState.afterReset, if_neg hreached]
    exact h.cached.symm.trans (hcached.resolve_left hreached)

theorem Consistent.afterReset_of_main {s : PartState} {r : ResetResults} (h : Consistent s)
    (hmain : s.partCurr = mainPartType) : Consistent (s.afterReset r) :=
  ⟨hmain, hmain.trans (h.acc_afterReset (.inr hmain)).symm, by simp [PartState.afterReset, hmain,
    mainPartType, accRpmb]⟩

/-- **A stale register.** A switch from the main partition mends it, if it goes through to another
partition. -/
theorem consistent_partSwitch_stale_iff {s : PartState} {target : PartType} {r : SwitchResults}
    (hcurr : s.partCurr = mainPartType) (hpaused : s.retunePaused = false)
    (hstale : acc s.partConfig ≠ mainPartType) :
    Consistent (mmcBlkPartSwitch true s target.bits r).2 ↔
      target.bits ≠ mainPartType ∧ Switches s.cmdqEn target r := by
  by_cases htarget : s.partCurr = target.bits
  · rw [mmcBlkPartSwitch, if_pos htarget]
    refine iff_of_false (fun hafter => ?_) fun h => h.1 (htarget.symm.trans hcurr)
    exact hstale (hafter.cached.symm.trans hcurr)
  by_cases hswitches : Switches s.cmdqEn target r
  · obtain ⟨ret, s', -, hcall, hcard, hacc, hcurr', hpaused'⟩ :=
      mmcBlkPartSwitch_switches htarget hswitches
    rw [hcall]
    refine iff_of_true ⟨hcurr'.trans hcard.symm, hcurr'.trans hacc.symm, ?_⟩
      ⟨fun heq => htarget (hcurr.trans heq.symm), hswitches⟩
    have hmain : mainPartType ≠ accRpmb := by decide
    rw [hpaused', hcurr', hcurr, hpaused, Bool.false_or, decide_eq_true hmain, Bool.and_true]
    exact decide_eq_true_iff
  · obtain ⟨err, s', -, hcall, -, hconfig, hcurr', -⟩ := mmcBlkPartSwitch_fails htarget hswitches
    rw [hcall]
    refine iff_of_false (fun hafter => ?_) fun h => hswitches h.2
    have hnow := hafter.cached
    rw [hcurr', hconfig] at hnow
    exact hstale (hnow.symm.trans hcurr)

theorem consistent_reset_iff {s : PartState} (h : Consistent s) (resetDone type : ℕ)
    (target : PartType) (r : ResetResults) :
    Consistent (mmcBlkReset true s resetDone type target r).2.2 ↔
      KeepsTrack s (.reset resetDone type target r) := by
  rw [mmcBlkReset]
  by_cases hdone : resetDone &&& type ≠ 0
  · rw [if_pos hdone]
    exact iff_of_true h (.inl hdone)
  rw [if_neg hdone]
  by_cases hsupported : r.supported = false
  · have hw : mmcHwReset s r = (-eopnotsupp, s) := if_pos hsupported
    simp only [hw, ne_eq, not_true_eq_false, if_false]
    exact iff_of_true h (.inr (.inl hsupported))
  have hw : mmcHwReset s r = (r.initCard, s.afterReset r) := if_neg hsupported
  simp only [hw]
  by_cases hinit : r.initCard = -eopnotsupp
  · -- the card is reset, and `part_curr` is not
    rw [if_neg (not_not.mpr hinit)]
    constructor
    · intro hafter
      exact .inr (.inr (.inl hafter.card))
    · rintro (hskip | hskip | hmain | ⟨hne, -⟩)
      · exact absurd hskip hdone
      · exact absurd hskip hsupported
      · exact h.afterReset_of_main hmain
      · exact absurd hinit hne
  rw [if_pos hinit]
  by_cases hcached : r.reached = true ∨ s.partCurr = mainPartType
  · have hmain : Consistent { s.afterReset r with partCurr := mainPartType } :=
      ⟨rfl, (h.acc_afterReset hcached).symm, by simp [PartState.afterReset, mainPartType, accRpmb]⟩
    refine iff_of_true hmain.partSwitch ?_
    rcases hcached with hreached | hcurr
    · exact .inr (.inr (.inr ⟨hinit, .inl hreached⟩))
    · exact .inr (.inr (.inl hcurr))
  · -- the cached register still names the partition before the reset
    obtain ⟨hreached, hcurr⟩ := not_or.mp hcached
    have hstale : acc (s.afterReset r).partConfig = s.partCurr := by
      rw [PartState.afterReset, if_neg hreached]
      exact h.cached.symm
    have hcondition : KeepsTrack s (.reset resetDone type target r) ↔
        target.bits ≠ mainPartType ∧ Switches r.cmdqEn target r.partSwitch := by
      constructor
      · rintro (hskip | hskip | hmain | ⟨-, hskip | ⟨htarget, hswitch, hdisable⟩⟩)
        · exact absurd hskip hdone
        · exact absurd hskip hsupported
        · exact absurd hmain hcurr
        · exact absurd hskip hreached
        · exact ⟨htarget, hswitch, hdisable⟩
      · rintro ⟨htarget, hswitch, hdisable⟩
        exact .inr (.inr (.inr ⟨hinit, .inr ⟨htarget, hswitch, hdisable⟩⟩))
    rw [hcondition]
    exact consistent_partSwitch_stale_iff (s := { s.afterReset r with partCurr := mainPartType })
      rfl rfl fun hmain => hcurr (hstale.symm.trans hmain)

/-! ### Runs -/

/-- **One step.** A step from a state with correct bookkeeping keeps it exactly when it meets the
condition. -/
theorem consistent_next_iff {s : PartState} (h : Consistent s) (a : PartAction) :
    Consistent (s.next a) ↔ KeepsTrack s a := by
  cases a with
  | partSwitch target r => exact iff_of_true h.partSwitch trivial
  | ioctl target cmd r => exact consistent_ioctl_iff h target cmd r
  | reset resetDone type target r => exact consistent_reset_iff h resetDone type target r

theorem runFrom_partitions (s₀ s : PartState) (as : List PartAction) :
    ∃ s', (partitions s₀).runFrom s as = some s' := by
  induction as generalizing s with
  | nil => exact ⟨s, rfl⟩
  | cons a as ih => exact ih (s.next a)

/-- **Partition bookkeeping.** The bookkeeping is correct in every state of a run exactly when
every step of the run meets the condition. -/
theorem always_consistent_iff {s : PartState} (h : Consistent s) (as : List PartAction) :
    (partitions s).Always Consistent s as ↔ (partitions s).Obeys KeepsTrack s as := by
  obtain ⟨s', hrun⟩ := runFrom_partitions s s as
  refine (partitions s).always_iff_obeys (S := fun _ => True) (fun _ _ _ _ _ _ => trivial)
    (fun u a u' _ hu hnext => ?_) trivial h hrun
  obtain rfl : u.next a = u' := Option.some.inj hnext
  exact consistent_next_iff hu a

/-- A card after the probe: it shows the main partition. -/
def partSampleState : PartState := ⟨0, 0, 0, false, true, true⟩

/-- An `ioctl` command that writes a byte to `PARTITION_CONFIG`. -/
def partSampleCmd (value : ℕ) : IoctlCmd := ⟨mmcSwitch, 0x03b30000 + value <<< 8, false⟩

/-- From the main partition to RPMB, on to a boot partition, to the other boot partition by an
`ioctl`, and back by a reset. -/
theorem always_consistent_iff_sample :
    (partitions partSampleState).Always Consistent partSampleState
      [.partSwitch ⟨3, by decide⟩ ⟨0, 0, 0⟩, .partSwitch ⟨1, by decide⟩ ⟨0, 0, -110⟩,
        .ioctl ⟨1, by decide⟩ (partSampleCmd 2) ⟨⟨0, 0, 0⟩, 0, 0, 0⟩,
        .reset 0 1 ⟨0, by decide⟩ ⟨true, true, 0, true, true, ⟨0, 0, 0⟩⟩] :=
  (always_consistent_iff (s := partSampleState) ⟨rfl, rfl, by decide⟩ _).mpr (by decide)

/-- **Re-tuning in RPMB.** An `ioctl` on the main partition moves the card to its RPMB partition,
and re-tuning is not paused. -/
theorem ioctl_rpmb_not_paused :
    ∃ s, (partitions partSampleState).run
        [.ioctl ⟨0, by decide⟩ (partSampleCmd accRpmb) ⟨⟨0, 0, 0⟩, 0, 0, 0⟩] = some s ∧
      s.cardAcc = accRpmb ∧ s.partCurr = accRpmb ∧ s.retunePaused = false ∧ ¬Consistent s := by
  refine ⟨_, rfl, by decide, by decide, by decide, fun h => ?_⟩
  exact absurd (h.paused.mpr (by decide)) (by decide)

end LinuxDriver.Mmc
