import LinuxDriver.Lts

/-!
# The re-tuning hold of an MMC host

Re-tuning sends commands of its own, so whoever needs a sequence of commands to stay together holds
it off. `hold_retune` counts the holds, a pause of re-tuning being one of them, and `mmc_retune`
tunes only if `retune_now` says that this is a point at which it may.

Tuning takes commands, and the functions here are called for them again. A step of the system is
therefore the part of `mmc_retune` before the tuning, which decides whether to tune, or the part
after it.

## Main definitions

* `RetuneHost`: what the functions read and write of a host.
* `mmcRetuneHold`, `mmcRetuneRelease`, `mmcRetunePause`, `mmcRetuneBegin` and the others.
* `retuneSystem`: hosts on which these functions are called in any order.
* `CallersMatched`: every release by a caller matches an earlier hold by a caller.

## Main results

* `retuneSystem_counted`: `hold_retune` counts the holds that are not released, and the pause.
* `retuneSystem_armed`: tuning starts only where a hold or a recheck has asked for it.
* `retuneSystem_correct`: the two together.
-/

namespace LinuxDriver.Mmc

/-! ### The functions -/

/-- What the functions read and write of a host. `card` is whether there is one, and `warned`
whether the warning of `mmc_retune_release` was given. -/
structure RetuneHost where
  canRetune : Bool
  needRetune : Bool
  retuneNow : Bool
  retunePaused : Bool
  doingRetune : Bool
  holdRetune : ℕ
  card : Bool
  warned : Bool
  deriving DecidableEq

/-- A host as `mmc_alloc_host` leaves it. -/
def RetuneHost.alloc : RetuneHost where
  canRetune := false
  needRetune := false
  retuneNow := false
  retunePaused := false
  doingRetune := false
  holdRetune := 0
  card := false
  warned := false

section Functions

variable (host : RetuneHost)

/-- `mmc_retune_needed` -/
def mmcRetuneNeeded : RetuneHost :=
  if host.canRetune then { host with needRetune := true } else host

/-- `mmc_retune_enable`, without its timer -/
def mmcRetuneEnable : RetuneHost := { host with canRetune := true }

/-- `mmc_retune_hold` -/
def mmcRetuneHold : RetuneHost :=
  let host := if host.holdRetune = 0 then { host with retuneNow := true } else host
  { host with holdRetune := host.holdRetune + 1 }

/-- `mmc_retune_hold_now` -/
def mmcRetuneHoldNow : RetuneHost :=
  { host with retuneNow := false, holdRetune := host.holdRetune + 1 }

/-- `mmc_retune_release` -/
def mmcRetuneRelease : RetuneHost :=
  if host.holdRetune ≠ 0 then { host with holdRetune := host.holdRetune - 1 }
  else { host with warned := true }

/-- `mmc_retune_pause` -/
def mmcRetunePause : RetuneHost :=
  if host.retunePaused then host
  else mmcRetuneHold (mmcRetuneNeeded { host with retunePaused := true })

/-- `mmc_retune_unpause` -/
def mmcRetuneUnpause : RetuneHost :=
  if host.retunePaused then mmcRetuneRelease { host with retunePaused := false } else host

/-- `mmc_retune_recheck` -/
def mmcRetuneRecheck : RetuneHost :=
  if host.holdRetune ≤ 1 then { host with retuneNow := true } else host

/-- `mmc_retune_disable` -/
def mmcRetuneDisable : RetuneHost :=
  { mmcRetuneUnpause host with canRetune := false, retuneNow := false, needRetune := false }

/-- `mmc_retune` up to the tuning: the host, and whether it starts to tune. -/
def mmcRetuneBegin : RetuneHost × Bool :=
  if host.retuneNow then
    let host := { host with retuneNow := false }
    if ¬host.needRetune ∨ host.doingRetune ∨ ¬host.card then (host, false)
    else ({ host with needRetune := false, doingRetune := true }, true)
  else (host, false)

/-- `mmc_retune` after the tuning. -/
def mmcRetuneEnd : RetuneHost := { host with doingRetune := false }

end Functions

/-! ### Calls in any order -/

/-- A call of one of the functions, the end of a tuning, or a card that comes or goes. -/
inductive RetuneOp
  | hold
  | holdNow
  | release
  | pause
  | unpause
  | needed
  | recheck
  | retune
  | retuneEnd
  | enable
  | disable
  | setCard (present : Bool)
  deriving DecidableEq

/-- The effect of an operation. Tuning ends only where it has started. -/
def RetuneHost.next (host : RetuneHost) : RetuneOp → Option RetuneHost
  | .hold => some (mmcRetuneHold host)
  | .holdNow => some (mmcRetuneHoldNow host)
  | .release => some (mmcRetuneRelease host)
  | .pause => some (mmcRetunePause host)
  | .unpause => some (mmcRetuneUnpause host)
  | .needed => some (mmcRetuneNeeded host)
  | .recheck => some (mmcRetuneRecheck host)
  | .retune => some (mmcRetuneBegin host).1
  | .retuneEnd => if host.doingRetune then some (mmcRetuneEnd host) else none
  | .enable => some (mmcRetuneEnable host)
  | .disable => some (mmcRetuneDisable host)
  | .setCard present => some { host with card := present }

/-- Hosts on which the functions are called. -/
def retuneSystem : Lts RetuneHost RetuneOp where
  init := .alloc
  next := RetuneHost.next

/-- The holds by callers in a run, of both kinds. -/
def callerHolds (ops : List RetuneOp) : ℕ := ops.count .hold + ops.count .holdNow

/-- The releases by callers in a run. -/
def callerReleases (ops : List RetuneOp) : ℕ := ops.count .release

/-- Every release by a caller matches an earlier hold by a caller. -/
def CallersMatched (ops : List RetuneOp) : Prop :=
  ∀ p, p <+: ops → callerReleases p ≤ callerHolds p

instance (ops : List RetuneOp) : Decidable (CallersMatched ops) :=
  decidable_of_iff (∀ p ∈ ops.inits, callerReleases p ≤ callerHolds p)
    (forall_congr' fun p => by rw [List.mem_inits])

/-- The holds that no release has matched yet. -/
def unmatchedHolds (ops : List RetuneOp) : ℕ := callerHolds ops - callerReleases ops

theorem CallersMatched.of_prefix {ops ops' : List RetuneOp} (h : CallersMatched ops)
    (hpre : ops' <+: ops) : CallersMatched ops' :=
  fun p hp => h p (hp.trans hpre)

theorem callerHolds_append (ops ops' : List RetuneOp) :
    callerHolds (ops ++ ops') = callerHolds ops + callerHolds ops' := by
  simp only [callerHolds, List.count_append]
  omega

theorem callerReleases_append (ops ops' : List RetuneOp) :
    callerReleases (ops ++ ops') = callerReleases ops + callerReleases ops' :=
  List.count_append

/-! ### The count of the holds -/

/-- What the holds and the releases of a run have left of `hold_retune`. -/
structure HoldsCounted (ops : List RetuneOp) (host : RetuneHost) : Prop where
  hold : host.holdRetune = unmatchedHolds ops + host.retunePaused.toNat
  warned : host.warned = false

section Step

variable {ops : List RetuneOp} {host host' : RetuneHost}

theorem mmcRetuneNeeded_eq (host : RetuneHost) :
    mmcRetuneNeeded host = { host with needRetune := host.needRetune || host.canRetune } := by
  obtain ⟨can, need, now, paused, doing, hold, card, warned⟩ := host
  cases can <;> simp [mmcRetuneNeeded]

theorem mmcRetuneHold_eq (host : RetuneHost) :
    mmcRetuneHold host = { host with
      retuneNow := host.retuneNow || decide (host.holdRetune = 0)
      holdRetune := host.holdRetune + 1 } := by
  unfold mmcRetuneHold
  by_cases h : host.holdRetune = 0 <;> simp [h]

theorem mmcRetuneRecheck_eq (host : RetuneHost) :
    mmcRetuneRecheck host = { host with
      retuneNow := host.retuneNow || decide (host.holdRetune ≤ 1) } := by
  unfold mmcRetuneRecheck
  by_cases h : host.holdRetune ≤ 1 <;> simp [h]

theorem mmcRetuneRelease_of_pos (h : 0 < host.holdRetune) :
    mmcRetuneRelease host = { host with holdRetune := host.holdRetune - 1 } :=
  if_pos h.ne'

theorem mmcRetuneRelease_retuneNow (host : RetuneHost) :
    (mmcRetuneRelease host).retuneNow = host.retuneNow := by
  unfold mmcRetuneRelease
  split <;> rfl

/-- The state in which `mmc_retune` starts to tune. -/
def RetuneHost.StartsTuning (host : RetuneHost) : Prop :=
  host.retuneNow ∧ host.needRetune ∧ ¬host.doingRetune ∧ host.card

instance (host : RetuneHost) : Decidable host.StartsTuning :=
  inferInstanceAs (Decidable (_ ∧ _ ∧ _ ∧ _))

theorem mmcRetuneBegin_snd (host : RetuneHost) :
    (mmcRetuneBegin host).2 = true ↔ host.StartsTuning := by
  unfold mmcRetuneBegin RetuneHost.StartsTuning
  cases host.retuneNow <;> cases host.needRetune <;> cases host.doingRetune <;>
    cases host.card <;> simp

theorem mmcRetuneBegin_fst (host : RetuneHost) :
    (mmcRetuneBegin host).1 = { host with
      retuneNow := false
      needRetune := host.needRetune && !decide host.StartsTuning
      doingRetune := host.doingRetune || decide host.StartsTuning } := by
  obtain ⟨can, need, now, paused, doing, hold, card, warned⟩ := host
  unfold mmcRetuneBegin RetuneHost.StartsTuning
  cases now <;> cases need <;> cases doing <;> cases card <;> simp

/-- The end of a pause gives back its hold. -/
theorem mmcRetuneUnpause_hold (hpaused : host.retunePaused = true → 0 < host.holdRetune) :
    (mmcRetuneUnpause host).warned = host.warned ∧
      (mmcRetuneUnpause host).retunePaused = false ∧
      (mmcRetuneUnpause host).holdRetune + host.retunePaused.toNat = host.holdRetune := by
  cases h : host.retunePaused with
  | true =>
    have hpos := hpaused h
    have hrelease : mmcRetuneUnpause host =
        { host with retunePaused := false, holdRetune := host.holdRetune - 1 } := by
      rw [mmcRetuneUnpause, if_pos h]
      exact if_pos hpos.ne'
    rw [hrelease]
    exact ⟨rfl, rfl, Nat.sub_add_cancel hpos⟩
  | false =>
    rw [mmcRetuneUnpause, if_neg (by simp [h])]
    exact ⟨rfl, h, rfl⟩

/-- **One step.** It changes `hold_retune` by what its caller holds or releases and by what it does
to the pause, and nothing is released that is not held. -/
theorem RetuneHost.next_holds {op : RetuneOp} (hnext : host.next op = some host')
    (hrelease : op = .release → 0 < host.holdRetune)
    (hpaused : host.retunePaused = true → 0 < host.holdRetune) :
    host'.warned = host.warned ∧
      host'.holdRetune + host.retunePaused.toNat + callerReleases [op] =
        host.holdRetune + host'.retunePaused.toNat + callerHolds [op] := by
  cases op with
  | hold =>
    obtain rfl := Option.some.inj hnext
    rw [mmcRetuneHold_eq]
    refine ⟨rfl, ?_⟩
    change host.holdRetune + 1 + host.retunePaused.toNat + 0 =
      host.holdRetune + host.retunePaused.toNat + 1
    omega
  | holdNow =>
    obtain rfl := Option.some.inj hnext
    refine ⟨rfl, ?_⟩
    change host.holdRetune + 1 + host.retunePaused.toNat + 0 =
      host.holdRetune + host.retunePaused.toNat + 1
    omega
  | release =>
    obtain rfl := Option.some.inj hnext
    have hpos : 0 < host.holdRetune := hrelease rfl
    rw [mmcRetuneRelease_of_pos hpos]
    refine ⟨rfl, ?_⟩
    change host.holdRetune - 1 + host.retunePaused.toNat + 1 =
      host.holdRetune + host.retunePaused.toNat + 0
    omega
  | pause =>
    obtain rfl := Option.some.inj hnext
    cases h : host.retunePaused with
    | true =>
      rw [mmcRetunePause, if_pos h, h]
      exact ⟨rfl, rfl⟩
    | false =>
      rw [mmcRetunePause, if_neg (by simp [h]), mmcRetuneNeeded_eq, mmcRetuneHold_eq]
      exact ⟨rfl, rfl⟩
  | unpause =>
    obtain rfl := Option.some.inj hnext
    obtain ⟨hwarned, hended, hhold⟩ := mmcRetuneUnpause_hold hpaused
    refine ⟨hwarned, ?_⟩
    rw [hended, hhold]
    rfl
  | disable =>
    -- the other fields that `mmc_retune_disable` clears are not counted
    obtain rfl := Option.some.inj hnext
    obtain ⟨hwarned, hended, hhold⟩ := mmcRetuneUnpause_hold hpaused
    refine ⟨hwarned, ?_⟩
    change (mmcRetuneUnpause host).holdRetune + host.retunePaused.toNat + 0 =
      host.holdRetune + (mmcRetuneUnpause host).retunePaused.toNat + 0
    rw [hended, hhold]
    rfl
  | needed =>
    obtain rfl := Option.some.inj hnext
    rw [mmcRetuneNeeded_eq]
    exact ⟨rfl, rfl⟩
  | recheck =>
    obtain rfl := Option.some.inj hnext
    rw [mmcRetuneRecheck_eq]
    exact ⟨rfl, rfl⟩
  | retune =>
    obtain rfl := Option.some.inj hnext
    rw [mmcRetuneBegin_fst]
    exact ⟨rfl, rfl⟩
  | retuneEnd =>
    obtain ⟨-, hend⟩ := Option.ite_none_right_eq_some.mp hnext
    obtain rfl := Option.some.inj hend
    exact ⟨rfl, rfl⟩
  | enable =>
    obtain rfl := Option.some.inj hnext
    exact ⟨rfl, rfl⟩
  | setCard present =>
    obtain rfl := Option.some.inj hnext
    exact ⟨rfl, rfl⟩

/-- A step keeps the count. A release finds a hold to release, and so does the end of a pause. -/
theorem HoldsCounted.next {op : RetuneOp} (h : HoldsCounted ops host)
    (hmatched : CallersMatched (ops ++ [op])) (hnext : host.next op = some host') :
    HoldsCounted (ops ++ [op]) host' := by
  have hle : callerReleases ops ≤ callerHolds ops := hmatched ops (List.prefix_append _ _)
  have hle' := hmatched _ (List.prefix_refl _)
  rw [callerReleases_append, callerHolds_append] at hle'
  have hhold := h.hold
  rw [unmatchedHolds] at hhold
  obtain ⟨hwarned, hcount⟩ := RetuneHost.next_holds hnext
    (by
      rintro rfl
      change _ + 1 ≤ _ + 0 at hle'
      omega)
    (fun hpaused => by
      rw [hpaused, Bool.toNat_true] at hhold
      omega)
  refine ⟨?_, hwarned.trans h.warned⟩
  rw [unmatchedHolds, callerReleases_append, callerHolds_append]
  omega

end Step

/-! ### Runs -/

/-- What flips `retune_now` on: `hold_retune` leaves zero through `mmc_retune_hold`, whose caller
may be `mmc_retune_pause`, or it is at most one at an `mmc_retune_recheck`. -/
def RetuneHost.Arms (host : RetuneHost) : RetuneOp → Prop
  | .hold => host.holdRetune = 0
  | .pause => host.retunePaused = false ∧ host.holdRetune = 0
  | .recheck => host.holdRetune ≤ 1
  | _ => False

/-- The calls that turn `retune_now` off. -/
def RetuneOp.Disarms (op : RetuneOp) : Prop := op = .retune ∨ op = .holdNow ∨ op = .disable

theorem retuneNow_next {host host' : RetuneHost} {op : RetuneOp}
    (hnext : retuneSystem.next host op = some host') (hnow : host'.retuneNow = true) :
    host.Arms op ∨ host.retuneNow = true ∧ ¬op.Disarms := by
  cases op with
  | hold =>
    obtain rfl := Option.some.inj hnext
    rw [mmcRetuneHold_eq, Bool.or_eq_true, decide_eq_true_iff] at hnow
    exact hnow.symm.imp id fun h => ⟨h, by simp [RetuneOp.Disarms]⟩
  | pause =>
    obtain rfl := Option.some.inj hnext
    cases hpaused : host.retunePaused with
    | true =>
      rw [mmcRetunePause, if_pos hpaused] at hnow
      exact .inr ⟨hnow, by simp [RetuneOp.Disarms]⟩
    | false =>
      rw [mmcRetunePause, if_neg (by simp [hpaused]), mmcRetuneNeeded_eq, mmcRetuneHold_eq,
        Bool.or_eq_true, decide_eq_true_iff] at hnow
      exact hnow.symm.imp (⟨hpaused, ·⟩) fun h => ⟨h, by simp [RetuneOp.Disarms]⟩
  | recheck =>
    obtain rfl := Option.some.inj hnext
    rw [mmcRetuneRecheck_eq, Bool.or_eq_true, decide_eq_true_iff] at hnow
    exact hnow.symm.imp id fun h => ⟨h, by simp [RetuneOp.Disarms]⟩
  | retune =>
    obtain rfl := Option.some.inj hnext
    rw [mmcRetuneBegin_fst] at hnow
    exact absurd hnow Bool.false_ne_true
  | holdNow | disable =>
    obtain rfl := Option.some.inj hnext
    exact absurd hnow Bool.false_ne_true
  | needed =>
    obtain rfl := Option.some.inj hnext
    rw [mmcRetuneNeeded_eq] at hnow
    exact .inr ⟨hnow, by simp [RetuneOp.Disarms]⟩
  | release =>
    obtain rfl := Option.some.inj hnext
    refine .inr ⟨?_, by simp [RetuneOp.Disarms]⟩
    rwa [mmcRetuneRelease_retuneNow] at hnow
  | unpause =>
    obtain rfl := Option.some.inj hnext
    refine .inr ⟨?_, by simp [RetuneOp.Disarms]⟩
    change (mmcRetuneUnpause host).retuneNow = true at hnow
    unfold mmcRetuneUnpause at hnow
    split at hnow
    · rwa [mmcRetuneRelease_retuneNow] at hnow
    · exact hnow
  | retuneEnd =>
    obtain ⟨-, hend⟩ := Option.ite_none_right_eq_some.mp hnext
    obtain rfl := Option.some.inj hend
    exact .inr ⟨hnow, by simp [RetuneOp.Disarms]⟩
  | enable | setCard present =>
    obtain rfl := Option.some.inj hnext
    exact .inr ⟨hnow, by simp [RetuneOp.Disarms]⟩

/-- **The holds are counted.** In a run in which the releases of the callers match their holds,
`hold_retune` is the number of their unmatched holds, and one more during a pause, and the warning
of `mmc_retune_release` is not given. -/
theorem retuneSystem_counted {ops : List RetuneOp} {host : RetuneHost}
    (hmatched : CallersMatched ops) (hrun : retuneSystem.run ops = some host) :
    HoldsCounted ops host := by
  refine retuneSystem.invariant_run (I := fun ops host => CallersMatched ops →
    HoldsCounted ops host) (fun _ => ⟨rfl, rfl⟩) (fun ops s op s' ih hnext hm => ?_) hrun hmatched
  exact (ih (hm.of_prefix (List.prefix_append _ _))).next hm hnext

/-- **Tuning is asked for.** `mmc_retune` starts to tune only if `hold_retune` has left zero
through `mmc_retune_hold`, or a recheck was made under at most one hold, and no `mmc_retune` was
called since. -/
theorem retuneSystem_armed {ops : List RetuneOp} {host : RetuneHost}
    (hrun : retuneSystem.run ops = some host) (htune : (mmcRetuneBegin host).2 = true) :
    retuneSystem.ArmedSince RetuneHost.Arms RetuneOp.Disarms ops := by
  have hnow : host.retuneNow = true := ((mmcRetuneBegin_snd host).mp htune).1
  exact retuneSystem.armedSince_of_flag (fun host => host.retuneNow = true)
    Bool.false_ne_true (fun _ _ _ _ => retuneNow_next) hrun hnow

/-- **The hold protocol.** After every run of calls in which the releases match the holds, the
holds are counted, and an `mmc_retune` that would tune now has been asked to. -/
theorem retuneSystem_correct {ops : List RetuneOp} {host : RetuneHost}
    (hmatched : CallersMatched ops) (hrun : retuneSystem.run ops = some host) :
    host.holdRetune = unmatchedHolds ops + host.retunePaused.toNat ∧ host.warned = false ∧
      ((mmcRetuneBegin host).2 = true →
        retuneSystem.ArmedSince RetuneHost.Arms RetuneOp.Disarms ops) :=
  have hcounted := retuneSystem_counted hmatched hrun
  ⟨hcounted.hold, hcounted.warned, retuneSystem_armed hrun⟩

/-- A command fails under a pause, and tuning is due at its retry. -/
theorem retuneSystem_correct_sample :
    ∃ host, retuneSystem.run [.setCard true, .enable, .pause, .retune, .retuneEnd, .hold, .unpause,
        .needed, .recheck] = some host ∧
      host.holdRetune = 1 ∧ host.warned = false ∧ (mmcRetuneBegin host).2 = true ∧
      retuneSystem.ArmedSince RetuneHost.Arms RetuneOp.Disarms [.setCard true, .enable, .pause,
        .retune, .retuneEnd, .hold, .unpause, .needed, .recheck] := by
  have hrun : retuneSystem.run [.setCard true, .enable, .pause, .retune, .retuneEnd, .hold,
      .unpause, .needed, .recheck] = some ⟨true, true, true, false, false, 1, true, false⟩ := by
    decide
  have hcorrect := retuneSystem_correct (by decide) hrun
  exact ⟨_, hrun, hcorrect.1, hcorrect.2.1, by decide, hcorrect.2.2 (by decide)⟩

end LinuxDriver.Mmc
