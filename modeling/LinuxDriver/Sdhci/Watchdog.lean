import LinuxDriver.Sdhci.Ownership

/-!
# The timers that watch the requests of an SDHCI host

If an interrupt is lost, a timer of the driver gives the request back. There are two of them: one
for the requests whose command uses the data lines, and one for the others, so that a command let in
during a transfer has its own. The timer is armed with each command that is sent, and taken down
when the request is given back.

The handler of the data timer looks for data, for a command on the data lines, and for a command on
the command line that uses the data lines. It overlooks the command before the data that sets the
block count, and a command after the data that stops the transfer without a busy state: if the timer
expires then, nothing watches the request any more.

## Main definitions

* `timerOf`, `Watched`: the timer of a request, and that the requests on the lines have theirs.
* `Arms`: what a step of the driver that sends and finishes does with the timers.
* `Attended`: the data timer does not expire while its handler overlooks the request.

## Main results

* `watched_next_iff`: the step lemma.
* `always_watched_iff`: when the requests on the lines are watched.
-/

namespace LinuxDriver.Sdhci

variable {reqs : ℕ → Mrq} {cfg : HostConfig} {s s' u : Host} {m : ℕ} {c : CmdRef}
  {issued : List ℕ}

/-! ### Timers and requests -/

/-- The request is watched by the data timer. -/
def watchedByData (reqs : ℕ → Mrq) (mrq : ℕ) : Bool := sdhciDataLineCmd reqs ⟨mrq, .cmd⟩

/-- Whether the timer of a request is armed. -/
def timerOf (reqs : ℕ → Mrq) (s : Host) (mrq : ℕ) : Bool :=
  if watchedByData reqs mrq then s.dataTimer else s.timer

/-- The requests on the lines have their timer. -/
def Watched (reqs : ℕ → Mrq) (s : Host) : Prop := ∀ m ∈ owners s, timerOf reqs s m = true

instance (s : Host) : Decidable (Watched reqs s) := inferInstanceAs (Decidable (∀ m ∈ _, _))

/-- No timer is taken down, and what comes onto the lines has its timer. -/
structure Arms (reqs : ℕ → Mrq) (s s' : Host) : Prop where
  timer : s.timer = true → s'.timer = true
  dataTimer : s.dataTimer = true → s'.dataTimer = true
  owned : ∀ m ∈ owners s', m ∈ owners s ∨ timerOf reqs s' m = true

theorem Arms.refl (s : Host) : Arms reqs s s := ⟨id, id, fun _ => .inl⟩

theorem Arms.timerOf (h : Arms reqs s s') (hm : timerOf reqs s m = true) :
    timerOf reqs s' m = true := by
  unfold Sdhci.timerOf at hm ⊢
  split_ifs at hm ⊢
  · exact h.dataTimer hm
  · exact h.timer hm

theorem Arms.trans (h : Arms reqs s u) (h' : Arms reqs u s') : Arms reqs s s' where
  timer := h'.timer ∘ h.timer
  dataTimer := h'.dataTimer ∘ h.dataTimer
  owned m hm := (h'.owned m hm).elim
    (fun hu => (h.owned m hu).imp id fun ht => h'.timerOf ht) .inr

theorem Arms.watched (h : Arms reqs s s') (hs : Watched reqs s) : Watched reqs s' := fun m hm =>
  (h.owned m hm).elim (fun hu => h.timerOf (hs m hu)) id

/-- Where the lines do not change. -/
theorem Arms.of_eq (htimer : s'.timer = s.timer) (hdataTimer : s'.dataTimer = s.dataTimer)
    (howners : owners s' ⊆ owners s) : Arms reqs s s' :=
  ⟨fun h => htimer.trans h, fun h => hdataTimer.trans h, fun _ hm => .inl (howners hm)⟩

/-! ### The driver -/

theorem Arms.setCmdError (h : Arms reqs s u) (c : CmdRef) (error : ℤ) :
    Arms reqs s (u.setCmdError c error) :=
  h.trans (Arms.of_eq rfl rfl (Finset.Subset.refl _))

theorem timers_sdhciFinishMrq (reqs : ℕ → Mrq) (cfg : HostConfig) (s : Host) (m : ℕ) :
    (sdhciFinishMrq reqs cfg s m).timer = s.timer ∧
      (sdhciFinishMrq reqs cfg s m).dataTimer = s.dataTimer := by
  obtain ⟨-, -, -, -, -, htimer, hdataTimer⟩ := finishMrqSlot_frame
    { clearMrq s m with
      pendingReset := (clearMrq s m).pendingReset || sdhciNeedsReset reqs cfg s m } m
  exact ⟨htimer, hdataTimer⟩

theorem arms_sdhciFinishMrq (s : Host) (m : ℕ) : Arms reqs s (sdhciFinishMrq reqs cfg s m) := by
  obtain ⟨htimer, hdataTimer⟩ := timers_sdhciFinishMrq reqs cfg s m
  refine Arms.of_eq htimer hdataTimer ?_
  rw [owners_sdhciFinishMrq]
  exact Finset.erase_subset _ _

theorem Arms.finishMrq (h : Arms reqs s u) (m : ℕ) : Arms reqs s (sdhciFinishMrq reqs cfg u m) :=
  h.trans (arms_sdhciFinishMrq u m)

/-- A command that is sent arms the timer of its request. -/
theorem arms_sdhciModTimer (s : Host) (m : ℕ) (h : owners s ⊆ insert m (owners u))
    (htimer : s.timer = u.timer) (hdataTimer : s.dataTimer = u.dataTimer) :
    Arms reqs u (sdhciModTimer reqs s m) := by
  unfold sdhciModTimer
  split_ifs with hline
  · refine ⟨fun h => htimer.trans h, fun _ => rfl, fun a ha => ?_⟩
    rcases Finset.mem_insert.mp (h ha) with rfl | ha
    · exact .inr (if_pos hline)
    · exact .inl ha
  · refine ⟨fun _ => rfl, fun h => hdataTimer.trans h, fun a ha => ?_⟩
    rcases Finset.mem_insert.mp (h ha) with rfl | ha
    · exact .inr (if_neg hline)
    · exact .inl ha

theorem prepared_lines (reqs : ℕ → Mrq) (s : Host) (c : CmdRef) :
    owners (sdhciPrepareData reqs (occupyLines reqs s c) c) ⊆ insert c.mrq (owners s) ∧
      (sdhciPrepareData reqs (occupyLines reqs s c) c).timer = s.timer ∧
      (sdhciPrepareData reqs (occupyLines reqs s c) c).dataTimer = s.dataTimer := by
  obtain ⟨hcmd, hdataCmd, hdata, htimer, hdataTimer⟩ :
      (sdhciPrepareData reqs (occupyLines reqs s c) c).cmd = some c ∧
      ((sdhciPrepareData reqs (occupyLines reqs s c) c).dataCmd = some c ∨
        (sdhciPrepareData reqs (occupyLines reqs s c) c).dataCmd = s.dataCmd) ∧
      ((sdhciPrepareData reqs (occupyLines reqs s c) c).data = some c.mrq ∨
        (sdhciPrepareData reqs (occupyLines reqs s c) c).data = s.data) ∧
      (sdhciPrepareData reqs (occupyLines reqs s c) c).timer = s.timer ∧
      (sdhciPrepareData reqs (occupyLines reqs s c) c).dataTimer = s.dataTimer := by
    unfold sdhciPrepareData occupyLines
    split_ifs
    · exact ⟨rfl, .inl rfl, .inl rfl, rfl, rfl⟩
    · exact ⟨rfl, .inr rfl, .inl rfl, rfl, rfl⟩
    · exact ⟨rfl, .inl rfl, .inr rfl, rfl, rfl⟩
    · exact ⟨rfl, .inr rfl, .inr rfl, rfl, rfl⟩
  refine ⟨fun a ha => ?_, htimer, hdataTimer⟩
  obtain ⟨d, hd, rfl⟩ | ⟨d, hd, rfl⟩ | hd := mem_owners.mp ha
  · obtain rfl := Option.some.inj (hcmd.symm.trans hd)
    exact Finset.mem_insert_self _ _
  · rcases hdataCmd with h | h
    · obtain rfl := Option.some.inj (h.symm.trans hd)
      exact Finset.mem_insert_self _ _
    · exact Finset.mem_insert_of_mem (mem_owners.mpr (.inr (.inl ⟨d, h.symm.trans hd, rfl⟩)))
  · rcases hdata with h | h
    · obtain rfl := Option.some.inj (h.symm.trans hd)
      exact Finset.mem_insert_self _ _
    · exact Finset.mem_insert_of_mem (mem_owners.mpr (.inr (.inr (h.symm.trans hd))))

theorem arms_sdhciSendCommand (s : Host) (c : CmdRef) (stuck : Bool) :
    Arms reqs s (sdhciSendCommand reqs cfg s c stuck) := by
  unfold sdhciSendCommand
  dsimp only
  set s₁ : Host := { s.setCmdError c 0 with warned := s.warned || s.cmd.isSome } with hs₁
  have h₁ : Arms reqs s s₁ := Arms.of_eq rfl rfl (Finset.Subset.refl _)
  obtain ⟨howners, htimer, hdataTimer⟩ := prepared_lines reqs s₁ c
  split_ifs
  · exact (h₁.setCmdError _ _).finishMrq _
  · -- a response that is not supported: the request is done at once
    obtain ⟨htimer', hdataTimer'⟩ := timers_sdhciFinishMrq reqs cfg
      ((sdhciPrepareData reqs (occupyLines reqs s₁ c) c).setCmdError c (-einval)) c.mrq
    refine h₁.trans (Arms.of_eq (htimer'.trans htimer) (hdataTimer'.trans hdataTimer) ?_)
    rw [owners_sdhciFinishMrq]
    exact (Finset.erase_subset_erase _ howners).trans (Finset.erase_insert_subset _ _)
  · exact h₁.trans (arms_sdhciModTimer _ _ howners htimer hdataTimer)

theorem Arms.sendCommand (h : Arms reqs s u) (c : CmdRef) (stuck : Bool) :
    Arms reqs s (sdhciSendCommand reqs cfg u c stuck) :=
  h.trans (arms_sdhciSendCommand u c stuck)

/-- Commands and data taken off the lines. -/
theorem Arms.drop (h : Arms reqs s u) (hcmd : s'.cmd = none ∨ s'.cmd = u.cmd)
    (hdataCmd : s'.dataCmd = none ∨ s'.dataCmd = u.dataCmd)
    (hdata : s'.data = none ∨ s'.data = u.data) (htimer : s'.timer = u.timer)
    (hdataTimer : s'.dataTimer = u.dataTimer) : Arms reqs s s' := by
  refine h.trans (Arms.of_eq htimer hdataTimer fun a ha => mem_owners.mpr ?_)
  obtain ⟨d, hd, hda⟩ | ⟨d, hd, hda⟩ | hd := mem_owners.mp ha
  · exact .inl ⟨d, hcmd.elim (fun h => nomatch h.symm.trans hd) fun h => h.symm.trans hd, hda⟩
  · exact .inr (.inl
      ⟨d, hdataCmd.elim (fun h => nomatch h.symm.trans hd) fun h => h.symm.trans hd, hda⟩)
  · exact .inr (.inr (hdata.elim (fun h => nomatch h.symm.trans hd) fun h => h.symm.trans hd))

theorem arms_sdhciFinishData (reqs : ℕ → Mrq) (cfg : HostConfig) (s : Host) (stuck : Bool) :
    Arms reqs s (sdhciFinishData reqs cfg s stuck) := by
  unfold sdhciFinishData
  split
  · exact Arms.refl s
  · dsimp only
    split_ifs
    · refine Arms.finishMrq ?_ _
      exact (Arms.refl s).drop (.inr rfl) (.inl rfl) (.inl rfl) rfl rfl
    · refine Arms.sendCommand ?_ _ _
      exact (Arms.refl s).drop (.inl rfl) (.inl rfl) (.inl rfl) rfl rfl
    · refine Arms.finishMrq ?_ _
      exact (Arms.refl s).drop (.inr rfl) (.inl rfl) (.inl rfl) rfl rfl

theorem Arms.finishData (h : Arms reqs s u) (stuck : Bool) :
    Arms reqs s (sdhciFinishData reqs cfg u stuck) :=
  h.trans (arms_sdhciFinishData reqs cfg u stuck)

theorem arms_mmcCommandDone (reqs : ℕ → Mrq) (s : Host) (c : CmdRef) :
    Arms reqs s (mmcCommandDone reqs { s with cmd := none } c) := by
  unfold mmcCommandDone
  split_ifs
  · exact (Arms.refl s).drop (.inl rfl) (.inr rfl) (.inr rfl) rfl rfl
  · exact (Arms.refl s).drop (.inl rfl) (.inr rfl) (.inr rfl) rfl rfl

theorem arms_sdhciFinishCommand (s : Host) (stuck : Bool) :
    Arms reqs s (sdhciFinishCommand reqs cfg s stuck) := by
  unfold sdhciFinishCommand
  split
  · exact Arms.refl s
  next c hc =>
    have hdone := arms_mmcCommandDone reqs s c
    generalize mmcCommandDone reqs { s with cmd := none } c = u at hdone
    dsimp only
    split_ifs
    · exact hdone
    · exact hdone.sendCommand _ _
    · exact hdone.finishData _
    · exact hdone
    · exact (hdone.finishData _).finishMrq _
    · exact hdone.finishMrq _

theorem arms_sdhciCmdIrq (s : Host) (intmask : CmdInt) (stuck : Bool) :
    Arms reqs s (sdhciCmdIrq reqs cfg s intmask stuck) := by
  unfold sdhciCmdIrq
  split
  · exact Arms.refl s
  next c hc =>
    dsimp only
    generalize (if intmask.timeout then -etimedout else -eilseq) = error
    have herror : Arms reqs s (s.setCmdError c error) := (Arms.refl s).setCmdError c error
    split_ifs
    · exact herror.drop (.inl rfl) (.inr rfl) (.inr rfl) rfl rfl
    · exact herror.finishMrq _
    · exact arms_sdhciFinishCommand s stuck
    · exact Arms.refl s

theorem arms_sdhciDataIrq (s : Host) (intmask : DataInt) (stuck : Bool) :
    Arms reqs s (sdhciDataIrq reqs cfg s intmask stuck) := by
  have hdrop : Arms reqs s { s with dataCmd := none } :=
    (Arms.refl s).drop (.inr rfl) (.inl rfl) (.inr rfl) rfl rfl
  unfold sdhciDataIrq
  split
  · split
    · exact Arms.refl s
    · split_ifs
      · exact (hdrop.setCmdError _ _).finishMrq _
      · exact hdrop
      · exact hdrop.finishMrq _
      · exact Arms.refl s
      · exact Arms.refl s
  next m hd =>
    have hnote : Arms reqs s (noteDataError s m intmask) := by
      unfold noteDataError
      split
      · exact Arms.of_eq rfl rfl (Finset.Subset.refl _)
      · exact Arms.refl s
    dsimp only
    split_ifs
    · exact hnote.finishData _
    · exact hnote.drop (.inr rfl) (.inr rfl) (.inr rfl) rfl rfl
    · exact hnote.finishData _
    · exact hnote

theorem arms_sdhciCardEvent (s : Host) (present : Bool) :
    Arms reqs s (sdhciCardEvent reqs cfg s present) := by
  unfold sdhciCardEvent
  split_ifs
  · exact sdhciErrorOutMrqs_keeps reqs cfg _ (Arms.refl s) fun _ hu c _ =>
      (hu.setCmdError c _).finishMrq _
  · exact Arms.refl s

theorem arms_sdhciRequest (s : Host) (m : ℕ) (present stuck : Bool) :
    Arms reqs s (sdhciRequest reqs cfg s m present stuck) := by
  unfold sdhciRequest
  extract_lets s₁
  have h₁ : Arms reqs s s₁ := Arms.of_eq rfl rfl (Finset.Subset.refl _)
  split_ifs
  · exact (h₁.setCmdError _ _).finishMrq _
  · exact h₁.sendCommand _ _
  · exact h₁.sendCommand _ _

/-! ### Which timer watches which request -/

theorem watchedByData_of_data (h : (reqs m).data = true) : watchedByData reqs m = true := by
  simp [watchedByData, sdhciDataLineCmd, hasData, h]

theorem watchedByData_of_simple (h : Simple reqs m) : watchedByData reqs m = false := by
  simp [watchedByData, sdhciDataLineCmd, hasData, cmdOf, h.1, h.2.1]

/-- A command that uses the data lines belongs to a request with the data timer. -/
theorem watchedByData_of_line (hc : Member reqs c) (h : sdhciDataLineCmd reqs c = true) :
    watchedByData reqs c.mrq = true := by
  by_cases hrole : c.role = .cmd
  · obtain ⟨a, r⟩ := c
    obtain rfl : r = .cmd := hrole
    exact h
  · exact watchedByData_of_data (hc.data hrole)

/-- A request with the other timer has its command on the command line, and only there. -/
theorem Good.cmd_of_not_watchedByData (hg : Good reqs issued s) (hm : m ∈ owners s)
    (h : watchedByData reqs m = false) : s.cmd = some ⟨m, .cmd⟩ := by
  obtain ⟨d, hd, rfl⟩ | ⟨d, hd, rfl⟩ | hd := mem_owners.mp hm
  · by_cases hrole : d.role = .cmd
    · rw [hd, ← hrole]
    · exact nomatch h.symm.trans (watchedByData_of_data ((hg.member d (.inl hd)).data hrole))
  · exact nomatch h.symm.trans
      (watchedByData_of_line (hg.member d (.inr hd)) (hg.dataCmd_line d hd))
  · exact nomatch h.symm.trans (watchedByData_of_data (hg.data_owner m hd).2)

/-- Of two requests that are not given back, one is watched by the data timer and the other one is
not. -/
theorem Good.watchedByData_ne (hg : Good reqs issued s) {a b : ℕ}
    (ha : a ∈ held s (owners s)) (hb : b ∈ held s (owners s)) (hab : a ≠ b) :
    watchedByData reqs a ≠ watchedByData reqs b := by
  have hcap : ∀ x, s.commandDone x = true → watchedByData reqs x = true := fun x hx => by
    rcases (reqs x).cap_line (hg.accounted.cap x hx) with h | h
    · exact watchedByData_of_data h
    · simp [watchedByData, sdhciDataLineCmd, cmdOf, h]
  rcases hg.accounted.pair a ha b hb hab with h | h
  · rw [hcap a h.1, watchedByData_of_simple h.2]
    decide
  · rw [hcap b h.1, watchedByData_of_simple h.2]
    decide

theorem Good.not_watchedByData (hg : Good reqs issued s) {a : ℕ} (ha : a ∈ owners s)
    (hm : m ∈ owners s) (ham : a ≠ m) (h : watchedByData reqs m = true) :
    watchedByData reqs a = false := by
  have hne := hg.watchedByData_ne (Multiset.mem_add.mpr (.inr (Finset.mem_val.mpr ha)))
    (Multiset.mem_add.mpr (.inr (Finset.mem_val.mpr hm))) ham
  rw [h] at hne
  exact Bool.eq_false_iff.mpr hne

/-! ### Timers that expire -/

/-- The data timer has expired, and its handler does nothing for the request. -/
def Overlooked (reqs : ℕ → Mrq) (s : Host) : Prop :=
  s.data = none ∧ s.dataCmd = none ∧
    ∃ c ∈ s.cmd, sdhciDataLineCmd reqs c = false ∧ watchedByData reqs c.mrq = true

instance (s : Host) : Decidable (Overlooked reqs s) :=
  inferInstanceAs (Decidable (_ ∧ _ ∧ ∃ c ∈ s.cmd, _ ∧ _))

/-- The data timer does not expire while its handler overlooks the request. -/
def Attended (reqs : ℕ → Mrq) (s : State) : Action → Prop
  | .dataTimer _ => ¬Overlooked reqs s.host
  | _ => True

instance (s : State) : (a : Action) → Decidable (Attended reqs s a)
  | .dataTimer _ => inferInstanceAs (Decidable (¬Overlooked reqs s.host))
  | .request _ _ _ | .cmdIrq _ _ | .dataIrq _ _ | .timer | .cardEvent _ | .requestDone =>
    isTrue trivial

theorem watched_sdhciTimeoutTimer (hg : Good reqs issued s) (hs : Watched reqs s) :
    Watched reqs (sdhciTimeoutTimer reqs cfg { s with timer := false }) := by
  have hdata : ∀ a ∈ owners s, watchedByData reqs a = true → s.dataTimer = true :=
    fun a ha h => by
      have ht := hs a ha
      rwa [timerOf, if_pos h] at ht
  unfold sdhciTimeoutTimer
  split
  next hc =>
    intro a ha
    have hwatched : watchedByData reqs a = true := by
      by_contra h
      exact nomatch hc.symm.trans (hg.cmd_of_not_watchedByData ha (Bool.eq_false_iff.mpr h))
    rw [timerOf, if_pos hwatched]
    exact hdata a ha hwatched
  next c hc =>
    change s.cmd = some c at hc
    split_ifs with hline
    · intro a ha
      have hwatched : watchedByData reqs a = true := by
        by_contra h
        have hcmd := hg.cmd_of_not_watchedByData ha (Bool.eq_false_iff.mpr h)
        obtain rfl := Option.some.inj (hc.symm.trans hcmd)
        exact h hline
      rw [timerOf, if_pos hwatched]
      exact hdata a ha hwatched
    · -- the request of the command is the only one that the timer watched
      intro a ha
      rw [owners_sdhciFinishMrq, Finset.mem_erase] at ha
      have hwatched : watchedByData reqs a = true := by
        by_contra h
        have hcmd := hg.cmd_of_not_watchedByData (m := a) ha.2 (Bool.eq_false_iff.mpr h)
        obtain rfl := Option.some.inj (hc.symm.trans hcmd)
        exact ha.1 rfl
      rw [timerOf, if_pos hwatched, (timers_sdhciFinishMrq reqs cfg _ _).2]
      exact hdata a ha.2 hwatched

/-- After the end of a transfer its request is off the lines, or is stopped by a command with a
timer. -/
theorem timerOf_sdhciFinishData (hd : s.data = some m) (stuck : Bool)
    (hm : m ∈ owners (sdhciFinishData reqs cfg s stuck)) :
    timerOf reqs (sdhciFinishData reqs cfg s stuck) m = true := by
  have hfinish : ∀ u : Host, m ∉ owners (sdhciFinishMrq reqs cfg u m) := fun u h => by
    rw [owners_sdhciFinishMrq] at h
    exact Finset.notMem_erase _ _ h
  unfold sdhciFinishData at hm ⊢
  rw [hd] at hm ⊢
  dsimp only at hm ⊢
  split_ifs at hm ⊢
  · exact absurd hm (hfinish _)
  · rcases (arms_sdhciSendCommand _ _ stuck).owned m hm with h | h
    · obtain ⟨_, h, -⟩ | ⟨_, h, -⟩ | h := mem_owners.mp h <;> exact nomatch h
    · exact h
  · exact absurd hm (hfinish _)

/-- The data timer expires, and what is left on the lines is watched, unless the handler overlooks
the request. -/
theorem watched_sdhciTimeoutDataTimer_iff (hg : Good reqs issued s) (hs : Watched reqs s)
    (stuck : Bool) :
    Watched reqs (sdhciTimeoutDataTimer reqs cfg { s with dataTimer := false } stuck) ↔
      ¬Overlooked reqs s := by
  have htimer : ∀ a ∈ owners s, watchedByData reqs a = false → s.timer = true := fun a ha h => by
    have ht := hs a ha
    rwa [timerOf, if_neg (by rw [h]; decide)] at ht
  -- a request taken off the lines was the only one that the data timer watched
  have hfinish : ∀ c, (s.cmd = some c ∨ s.dataCmd = some c) → sdhciDataLineCmd reqs c = true →
      Watched reqs (sdhciFinishMrq reqs cfg
        ({ s with dataTimer := false }.setCmdError c (-etimedout)) c.mrq) := by
    intro c hc hline a ha
    rw [owners_sdhciFinishMrq, Finset.mem_erase] at ha
    have hmem : c.mrq ∈ owners s :=
      mem_owners.mpr (hc.imp (fun h => ⟨c, h, rfl⟩) fun h => .inl ⟨c, h, rfl⟩)
    have hnot : watchedByData reqs a = false :=
      hg.not_watchedByData ha.2 hmem ha.1 (watchedByData_of_line (hg.member c hc) hline)
    rw [timerOf, if_neg (by rw [hnot]; decide), (timers_sdhciFinishMrq reqs cfg _ _).1]
    exact htimer a ha.2 hnot
  unfold sdhciTimeoutDataTimer
  split
  next m hd =>
    refine iff_of_true (fun a ha => ?_) fun h => nomatch hd.symm.trans h.1
    by_cases ham : a = m
    · subst ham
      refine timerOf_sdhciFinishData ?_ stuck ha
      exact hd
    · have harms := arms_sdhciFinishData reqs cfg
        ({ s with dataTimer := false }.setDataError m (-etimedout)) stuck
      rcases harms.owned a ha with h | h
      · have hnot : watchedByData reqs a = false :=
          hg.not_watchedByData h (mem_owners.mpr (.inr (.inr hd))) ham
            (watchedByData_of_data (hg.data_owner m hd).2)
        rw [timerOf, if_neg (by rw [hnot]; decide)]
        exact harms.timer (htimer a h hnot)
      · exact h
  next hd =>
    split
    next c hc =>
      exact iff_of_true (hfinish c (.inr hc) (hg.dataCmd_line c hc))
        fun h => nomatch hc.symm.trans h.2.1
    next hdc =>
      change s.data = none at hd
      change s.dataCmd = none at hdc
      split
      next c hc =>
        change s.cmd = some c at hc
        split_ifs with hline
        · refine iff_of_true (hfinish c (.inl hc) hline) fun ⟨_, _, d, hd, hno, _⟩ => ?_
          obtain rfl := Option.some.inj (hc.symm.trans hd)
          exact nomatch hline.symm.trans hno
        · -- the handler does nothing
          have hnoline := Bool.eq_false_iff.mpr hline
          constructor
          · rintro h ⟨_, _, d, hd, _, hwatched⟩
            obtain rfl := Option.some.inj (hc.symm.trans hd)
            have ht := h c.mrq (mem_owners.mpr (.inl ⟨c, hc, rfl⟩))
            rw [timerOf, if_pos hwatched] at ht
            exact nomatch ht
          · intro h a ha
            have hac : a = c.mrq := by
              obtain ⟨e, he, rfl⟩ | ⟨e, he, -⟩ | he := mem_owners.mp ha
              · rw [Option.some.inj (hc.symm.trans he)]
              · exact nomatch hdc.symm.trans he
              · exact nomatch hd.symm.trans he
            have hnot : watchedByData reqs a = false :=
              Bool.eq_false_iff.mpr fun hw => h ⟨hd, hdc, c, hc, hnoline, hac ▸ hw⟩
            rw [timerOf, if_neg (by rw [hnot]; decide)]
            exact htimer a ha hnot
      next hc =>
        change s.cmd = none at hc
        refine iff_of_true (fun a ha => ?_) fun ⟨_, _, c, h, _⟩ => nomatch hc.symm.trans h
        obtain ⟨_, h, -⟩ | ⟨_, h, -⟩ | h := mem_owners.mp ha
        · exact nomatch hc.symm.trans h
        · exact nomatch hdc.symm.trans h
        · exact nomatch hd.symm.trans h

/-- The timer that is taken down with a request that is given back does not watch another one. -/
theorem watched_sdhciRequestDone (hg : Good reqs issued s) (hs : Watched reqs s) :
    Watched reqs (sdhciRequestDone reqs cfg s) := by
  unfold sdhciRequestDone
  split
  next => exact hs
  next i hfind =>
    split
    next => exact hs
    next mrq hi =>
      have hdel : Watched reqs (sdhciDelTimer reqs s mrq) := by
        have howners : owners (sdhciDelTimer reqs s mrq) = owners s := by
          unfold sdhciDelTimer
          split_ifs <;> rfl
        intro a ha
        rw [howners] at ha
        have hdone : mrq ∈ SlotTable.contents s.mrqsDone := SlotTable.mem_contents.mpr ⟨i, hi⟩
        have ham : a ≠ mrq := fun h => hg.accounted.notMem_contents (h ▸ ha) hdone
        have hne := hg.watchedByData_ne (Multiset.mem_add.mpr (.inr (Finset.mem_val.mpr ha)))
          (Multiset.mem_add.mpr (.inl hdone)) ham
        have ht := hs a ha
        unfold sdhciDelTimer
        change watchedByData reqs a ≠ sdhciDataLineCmd reqs ⟨mrq, .cmd⟩ at hne
        unfold timerOf at ht ⊢
        cases hline : sdhciDataLineCmd reqs ⟨mrq, .cmd⟩ with
        | true =>
          rw [hline] at hne
          rw [if_neg hne] at ht ⊢
          exact ht
        | false =>
          rw [hline] at hne
          have hw : watchedByData reqs a = true := by simpa using hne
          rw [if_pos hw] at ht ⊢
          exact ht
      generalize sdhciDelTimer reqs s mrq = u at hdel
      dsimp only
      split_ifs
      · exact hdel
      · exact hdel
      · exact hdel

/-! ### Runs -/

/-- **The step lemma.** Where the requests are accounted for and watched, a step keeps them watched
exactly if it is not the data timer that expires while its handler overlooks the request. -/
theorem watched_next_iff {t t' : State} {a : Action} (hg : Good reqs t.issued t.host)
    (hs : Watched reqs t.host) (h : (requestSystem reqs cfg).next t a = some t') :
    Watched reqs t'.host ↔ Attended reqs t a := by
  cases a with
  | request mrq present stuck =>
    obtain rfl := Option.some.inj h
    exact iff_of_true ((arms_sdhciRequest _ _ _ _).watched hs) trivial
  | cmdIrq intmask stuck =>
    obtain rfl := Option.some.inj h
    exact iff_of_true ((arms_sdhciCmdIrq _ _ _).watched hs) trivial
  | dataIrq intmask stuck =>
    obtain rfl := Option.some.inj h
    exact iff_of_true ((arms_sdhciDataIrq _ _ _).watched hs) trivial
  | timer =>
    obtain ⟨-, rfl⟩ := Option.ite_some_none_eq_some.mp h
    exact iff_of_true (watched_sdhciTimeoutTimer hg hs) trivial
  | dataTimer stuck =>
    obtain ⟨-, rfl⟩ := Option.ite_some_none_eq_some.mp h
    exact watched_sdhciTimeoutDataTimer_iff hg hs stuck
  | cardEvent present =>
    obtain rfl := Option.some.inj h
    exact iff_of_true ((arms_sdhciCardEvent _ _).watched hs) trivial
  | requestDone =>
    obtain rfl := Option.some.inj h
    exact iff_of_true (watched_sdhciRequestDone hg hs) trivial

/-- **The requests are watched.** In a run in which requests are issued in turn, every request on
the lines has its timer armed, in all states, exactly if the data timer never expires while only a
command that does not use the data lines is on the lines of a request that it watches: the command
that sets the block count, or one that stops the transfer without a busy state. -/
theorem always_watched_iff {as : List Action} {t : State}
    (hrun : (requestSystem reqs cfg).run as = some t)
    (hturn : (requestSystem reqs cfg).Obeys (IssuesInTurn reqs) (requestSystem reqs cfg).init as) :
    (requestSystem reqs cfg).Always (fun t => Watched reqs t.host) (requestSystem reqs cfg).init as ↔
      (requestSystem reqs cfg).Obeys (Attended reqs) (requestSystem reqs cfg).init as :=
  (requestSystem reqs cfg).always_iff_obeys_of_obeys (S := fun t => Good reqs t.issued t.host)
    (I := fun t => Watched reqs t.host) (fun _ _ _ hg _ hD h => good_next hg hD h)
    (fun _ _ _ hg hs _ h => watched_next_iff hg hs h) good_init
    (fun a ha => absurd ha (Finset.notMem_empty a)) hturn hrun

/-- A request with data: the commands that set the block count and write are answered, and the data
timer expires. -/
def expiryRun : List Action :=
  [.request 0 true false, .cmdIrq response false, .cmdIrq response false, .dataTimer false,
    .requestDone]

/-- The same request, the data timer of which expires before any answer. -/
def overlookedRun : List Action := [.request 0 true false, .dataTimer false]

theorem always_watched_iff_sampleRun :
    (requestSystem sampleMrqs sampleConfig).Always (fun t => Watched sampleMrqs t.host)
        (requestSystem sampleMrqs sampleConfig).init expiryRun ∧
      ¬(requestSystem sampleMrqs sampleConfig).Always (fun t => Watched sampleMrqs t.host)
        (requestSystem sampleMrqs sampleConfig).init overlookedRun := by
  constructor
  · exact (always_watched_iff (run_eq_afterRun (by decide +kernel)) (by decide +kernel)).mpr
      (by decide +kernel)
  · intro h
    have hattended := (always_watched_iff (run_eq_afterRun (by decide +kernel))
      (by decide +kernel)).mp h
    exact absurd hattended (by decide +kernel)

end LinuxDriver.Sdhci
