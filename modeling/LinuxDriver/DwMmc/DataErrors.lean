import LinuxDriver.DwMmc.Stages

/-!
# Errors of the data of the DesignWare MMC host

An error of the data may be raised at any time, also between the two tests for it, or after them. It
is kept in the status of the data until the data is taken off the host, so the request says it when
it is given back.

## Main definitions

* `Doomed`: the request of the host has an error that it will say.
* `Completion.Reports`, `ErrorKept`: what becomes of it.

## Main results

* `Doomed.next`: the step lemma.
* `data_error_reported`: an error of the data is not lost, in any run.
-/

namespace LinuxDriver.DwMmc.Tasklet

variable {reqs : ℕ → Mrq} {h h' : Host} {m : ℕ} {issued : List ℕ} {s s' : State} {a : Action}

/-- The request of the host has an error that it will say: its data failed and is still on the host,
or the controller is about to be reset, or the command that stops it is waited for. -/
def Doomed (h : Host) (m : ℕ) : Prop :=
  h.mrq = some m ∧
    (h.data = true ∧ Failed h ∨
      (h.stage = .reset ∨ h.stage = .body .sendingStop) ∧
        (h.cmdError m .cmd ≠ 0 ∨ h.dataError m ≠ 0))

/-- A request is given back with an error. -/
def Completion.Reports (c : Completion) (m : ℕ) : Prop :=
  c.mrq = m ∧ (c.cmdError .cmd ≠ 0 ∨ c.dataError ≠ 0)

/-- What a step makes of a request with an error: it keeps it, or gives it back. -/
def ErrorKept (h h' : Host) (m : ℕ) : Prop :=
  h'.ended = h.ended ∧ Doomed h' m ∨ ∃ c : Completion, c.Reports m ∧ h'.ended = h.ended ++ [c]

theorem ErrorKept.of_data (hended : h'.ended = h.ended) (hmrq : h'.mrq = some m)
    (hdata : h'.data = true) (hfailed : Failed h') : ErrorKept h h' m :=
  .inl ⟨hended, hmrq, .inl ⟨hdata, hfailed⟩⟩

theorem ErrorKept.of_stop (hended : h'.ended = h.ended) (hmrq : h'.mrq = some m)
    (hstage : h'.stage = .reset ∨ h'.stage = .body .sendingStop)
    (herr : h'.cmdError m .cmd ≠ 0 ∨ h'.dataError m ≠ 0) : ErrorKept h h' m :=
  .inl ⟨hended, hmrq, .inr ⟨hstage, herr⟩⟩

/-- The request ends, and says its error. -/
theorem ErrorKept.of_end {u : Host} (hqueued : u.queued = false) (hended : u.ended = h.ended)
    (herr : u.cmdError m .cmd ≠ 0 ∨ u.dataError m ≠ 0) :
    ErrorKept h { dwMciRequestEnd reqs u m with pc := .off } m := by
  refine .inr ⟨u.completion m, ⟨rfl, herr⟩, ?_⟩
  rw [← hended]
  unfold dwMciRequestEnd
  simp only [hqueued, Bool.false_eq_true, if_false]

/-! ### Events -/

theorem Doomed.event (hd : Doomed h m) (he : Event h h') : Doomed h' m := by
  obtain ⟨hmrq, herr⟩ := hd
  have hstage : h'.stage = h.stage := by rw [Host.stage, he.pc, he.state, Host.stage]
  refine ⟨he.mrq.trans hmrq, herr.imp (fun hf => ?_) fun hs => ?_⟩
  · exact ⟨he.data.trans hf.1, he.failed hf.2⟩
  · rw [hstage, he.cmdError, he.dataError]
    exact hs

/-! ### The tasklet -/

/-- A data error that is found leaves the data and its status. -/
theorem dataFailed_frame (h : Host) :
    (dataFailed h).ended = h.ended ∧ (dataFailed h).mrq = h.mrq ∧ (dataFailed h).data = h.data ∧
      (dataFailed h).dataStatus = h.dataStatus := by
  set u : Host := dwMciStopDma { h with pending := { h.pending with dataError := false } } with hu
  unfold dataFailed
  dsimp only
  rw [← hu]
  split_ifs
  · have hf := frame_dwMciStartCommand u .stop u.stopCmdr
    exact ⟨hf.ended, hf.mrq, (dwMciStartCommand_spec u .stop u.stopCmdr).2.1, hf.dataStatus⟩
  · exact ⟨rfl, rfl, rfl, rfl⟩

theorem ErrorKept.dataFailed (hmrq : h.mrq = some m) (hdata : h.data = true) (hfailed : Failed h) :
    ErrorKept h (dataFailed h) m := by
  obtain ⟨hended, hm, hd, hstatus⟩ := dataFailed_frame h
  refine .of_data hended (hm.trans hmrq) (hd.trans hdata) ?_
  unfold Failed
  rw [hstatus]
  exact hfailed

theorem ErrorKept.awaitData (hmrq : h.mrq = some m) (hdata : h.data = true) (hfailed : Failed h)
    (st : DwMciState) : ErrorKept h (awaitData h st) m := by
  unfold Tasklet.awaitData dwMciSetDrto
  split_ifs <;> exact .of_data rfl hmrq hdata hfailed

theorem ErrorKept.sendingCmdBody {st : DwMciState} (hmrq : h.mrq = some m) (hdata : h.data = true)
    (hfailed : Failed h) (hst : st = .sendingCmd ∨ st = .sendingCmd11)
    (hstage : InStage reqs h m (.body st)) : ErrorKept h (sendingCmdBody reqs h st) m := by
  -- the data is there only with the command of the request
  obtain ⟨hcmd, hsome⟩ : h.cmd = some .cmd ∧ (reqs m).data.isSome = true := by
    rcases hst with rfl | rfl
    · obtain ⟨-, ⟨-, hno⟩ | ⟨hcmd, hd⟩⟩ := hstage
      · exact absurd (hdata.symm.trans hno) (by decide)
      · exact ⟨hcmd, hd.symm.trans hdata⟩
    · exact ⟨hstage.2.1, hstage.2.2.symm.trans hdata⟩
  have hcmdData : cmdData reqs m .cmd = (reqs m).data := if_pos rfl
  unfold Tasklet.sendingCmdBody
  by_cases hcomplete : h.pending.cmdComplete = false
  · rw [if_pos hcomplete]
    exact .of_data rfl hmrq hdata hfailed
  rw [if_neg hcomplete, hmrq, hcmd]
  dsimp only
  rw [hcmdData, if_neg (fun h => nomatch h.1)]
  have hended : (takeCommand reqs h m .cmd).ended = h.ended := rfl
  have hmrq' : (takeCommand reqs h m .cmd).mrq = some m := hmrq
  have hdata' : (takeCommand reqs h m .cmd).data = true := hdata
  have hfailed' : Failed (takeCommand reqs h m .cmd) := hfailed
  generalize takeCommand reqs h m .cmd = u at hended hmrq' hdata' hfailed' ⊢
  by_cases herr : u.cmdError m .cmd = 0
  · have hgoes : ¬((reqs m).data.isNone = true ∨ u.cmdError m .cmd ≠ 0) := by
      rintro (hnone | hne)
      · exact absurd hsome (by simp [Option.isNone_iff_eq_none.mp hnone])
      · exact hne herr
    rw [if_neg (fun h => h.2 herr), if_neg hgoes]
    exact .of_data hended hmrq' hdata' hfailed'
  · rw [if_pos ⟨hsome, herr⟩]
    split_ifs
    · exact .of_data hended hmrq' hdata' hfailed'
    · have hf := frame_dwMciStartCommand (dwMciStopDma u) .stop u.stopCmdr
      obtain ⟨-, -, he, -⟩ := dwMciStartCommand_spec (dwMciStopDma u) .stop u.stopCmdr
      refine .of_stop (hf.ended.trans hended) (hf.mrq.trans hmrq') (.inr rfl) ?_
      refine .inl fun h => herr ?_
      exact (congrFun (congrFun he m) .cmd).symm.trans h

theorem ErrorKept.dataBusyBody (hi : Inv reqs issued h) (hmrq : h.mrq = some m)
    (hdata : h.data = true) (hfailed : Failed h) (hsome : (reqs m).data.isSome = true) :
    ErrorKept h (dataBusyBody reqs h) m := by
  obtain ⟨data, hreq⟩ := Option.isSome_iff_exists.mp hsome
  unfold Tasklet.dataBusyBody
  by_cases hc : h.pending.dataComplete = false
  · rw [if_pos hc]
    exact .awaitData hmrq hdata hfailed _
  rw [if_neg hc, hmrq, hdata, Option.bind_some, hreq]
  dsimp only
  obtain ⟨hf, -, -, -, -⟩ := takeData_frame h m data
  have hended : (takeData h m data).ended = h.ended := hf.ended
  have hmrq' : (takeData h m data).mrq = some m := hf.mrq.trans hmrq
  have herr : (takeData h m data).dataError m ≠ 0 :=
    (dwMciDataComplete_spec { clearDataComplete h with
      data := false, completed := { h.completed with data := true } } m data
      (hi.unended hdata m hmrq)).1 hfailed
  rw [if_neg herr]
  exact .of_stop hended hmrq' (.inl rfl) (.inr herr)

theorem ErrorKept.resetBody (hi : Inv reqs issued h) (hmrq : h.mrq = some m)
    (herr : h.cmdError m .cmd ≠ 0 ∨ h.dataError m ≠ 0) : ErrorKept h (resetBody reqs h) m := by
  unfold Tasklet.resetBody
  have hmrq' : (dwMciReset h).mrq = some m := hmrq
  dsimp only
  rw [hmrq']
  split_ifs
  · exact .of_end (hi.queued : _ = false) rfl herr
  · exact .of_stop rfl rfl (.inr rfl) herr

theorem ErrorKept.sendingStopBody (hi : Inv reqs issued h) (hmrq : h.mrq = some m)
    (herr : h.cmdError m .cmd ≠ 0 ∨ h.dataError m ≠ 0) :
    ErrorKept h (sendingStopBody reqs h) m := by
  unfold Tasklet.sendingStopBody
  by_cases hc : h.pending.cmdComplete = false
  · rw [if_pos hc]
    exact .of_stop rfl hmrq (.inr rfl) herr
  rw [if_neg hc, hmrq]
  dsimp only
  obtain ⟨sg, hreset⟩ := resetIf_cases (clearCmdComplete h)
    ((clearCmdComplete h).cmdError m .cmd ≠ 0 ∧ (reqs m).data.isSome)
  rw [hreset]
  split_ifs
  · refine .of_end (hi.queued : _ = false) rfl ?_
    simpa [dwMciCommandComplete, Host.setCmdError, clearCmdComplete] using herr
  · exact .of_end (hi.queued : _ = false) rfl herr

/-- **One test of the events** keeps the error. -/
theorem Doomed.taskletStep (hi : Inv reqs issued h) (hd : Doomed h m) :
    ErrorKept h (taskletStep reqs h) m := by
  obtain ⟨hmrq, herr⟩ := hd
  have hstage : InStage reqs h m h.stage := by
    have hs := hi.staged
    rw [Staged, hmrq] at hs
    exact hs.2
  by_cases hoff : h.pc = .off
  · have heq : Tasklet.taskletStep reqs h = { h with pc := .body h.state } := by
      unfold Tasklet.taskletStep
      rw [hoff]
    rw [heq]
    rw [stage_of_off h hoff] at herr
    exact .inl ⟨rfl, hmrq, herr⟩
  rw [stage_of_ne h hoff] at hstage herr
  -- before the last stages the error is in the status of the data
  have hdata : h.pc ≠ .reset → h.pc ≠ .body .sendingStop → h.data = true ∧ Failed h :=
    fun hreset hstop => herr.resolve_right fun h' => h'.1.elim hreset hstop
  unfold Tasklet.taskletStep
  split
  next hpc => exact absurd hpc hoff
  next hpc =>
    obtain ⟨hd, hf⟩ := hdata (by rw [hpc]; decide) (by rw [hpc]; decide)
    unfold xferBody
    split_ifs
    · exact .awaitData hmrq hd hf _
    · exact .of_data rfl hmrq hd hf
  next hpc =>
    obtain ⟨hd, hf⟩ := hdata (by rw [hpc]; decide) (by rw [hpc]; decide)
    unfold checkedBody
    split_ifs
    · exact .dataFailed hmrq hd hf
    · exact .of_data rfl hmrq hd hf
  next hpc =>
    rw [hpc] at hstage
    refine .resetBody hi hmrq ?_
    rcases herr with ⟨hd, -⟩ | ⟨-, herr⟩
    · exact absurd (hd.symm.trans hstage.1) (by decide)
    · exact herr
  next hpc =>
    rw [hpc] at hstage
    exact hstage.elim
  next hpc =>
    rw [hpc] at hstage
    exact hstage.elim
  next hpc =>
    obtain ⟨hd, hf⟩ := hdata (by rw [hpc]; decide) (by rw [hpc]; decide)
    rw [hpc] at hstage
    exact .sendingCmdBody hmrq hd hf (.inl rfl) hstage
  next hpc =>
    obtain ⟨hd, hf⟩ := hdata (by rw [hpc]; decide) (by rw [hpc]; decide)
    rw [hpc] at hstage
    exact .sendingCmdBody hmrq hd hf (.inr rfl) hstage
  next hpc =>
    obtain ⟨hd, hf⟩ := hdata (by rw [hpc]; decide) (by rw [hpc]; decide)
    unfold sendingDataBody
    split_ifs
    · exact .dataFailed hmrq hd hf
    · exact .of_data rfl hmrq hd hf
  next hpc =>
    obtain ⟨hd, hf⟩ := hdata (by rw [hpc]; decide) (by rw [hpc]; decide)
    rw [hpc] at hstage
    exact .dataBusyBody hi hmrq hd hf hstage.2.1
  next hpc =>
    rw [hpc] at hstage
    refine .sendingStopBody hi hmrq ?_
    rcases herr with ⟨hd, -⟩ | ⟨-, herr⟩
    · -- the data is still there only after an error of the command
      rcases hstage.2 with h' | h' | ⟨hno, -⟩
      · exact .inl h'
      · exact .inr h'
      · exact absurd (hd.symm.trans hno) (by decide)
    · exact herr
  next hpc =>
    obtain ⟨hd, hf⟩ := hdata (by rw [hpc]; decide) (by rw [hpc]; decide)
    unfold dataErrorBody
    split_ifs
    · exact .of_data rfl hmrq hd hf
    · exact .of_data rfl hmrq hd hf

/-! ### Every run -/

/-- **The step lemma.** Whatever comes, the error is kept until the request is given back. -/
theorem Doomed.next (hi : Inv reqs s.issued s.host) (hd : Doomed s.host m) (ha : InOrder s a)
    (hnext : (taskletSystem reqs).next s a = some s') : ErrorKept s.host s'.host m := by
  have hraised : a.Raises → ErrorKept s.host s'.host m := fun hraises =>
    have he := event_next hraises hnext
    .inl ⟨he.ended, hd.event he⟩
  cases a with
  | request m' present => exact nomatch (hd.1.symm.trans hi.slot.symm).trans ha
  | tasklet =>
    obtain rfl := Option.some.inj hnext
    exact hd.taskletStep hi
  | setIos clock =>
    change (if clock = true ∧ s.host.state = .waitingCmd11Done then
      some { s with host := { s.host with state := .idle } } else some s) = some s' at hnext
    split_ifs at hnext with hc
    · exact absurd (.inr hc.2) (hi.held hd.1).busy
    · obtain rfl := Option.some.inj hnext
      exact .inl ⟨rfl, hd⟩
  | voltSwitch => exact hraised trivial
  | cmdError => exact hraised trivial
  | dataError => exact hraised trivial
  | dataOver => exact hraised trivial
  | cmdDone => exact hraised trivial
  | dataReady => exact hraised trivial
  | dmaComplete => exact hraised trivial
  | ctoTimer => exact hraised trivial
  | dtoTimer => exact hraised trivial
  | cmd11Timer => exact hraised trivial

theorem reported_of_doomed {as : List Action} (hi : Inv reqs s.issued s.host)
    (hd : Doomed s.host m) (hrun : (taskletSystem reqs).runFrom s as = some s')
    (horder : (taskletSystem reqs).Obeys InOrder s as) :
    s'.host.ended = s.host.ended ∧ s'.host.mrq = some m ∨
      ∃ bs u c, bs <+: as ∧ (taskletSystem reqs).runFrom s bs = some u ∧
        u.host.ended = s.host.ended ++ [c] ∧ c.Reports m := by
  induction as generalizing s with
  | nil =>
    obtain rfl := Option.some.inj hrun
    exact .inl ⟨rfl, hd.1⟩
  | cons a as ih =>
    obtain ⟨t, hnext, hrest⟩ := (taskletSystem reqs).runFrom_cons_eq_some.mp hrun
    rcases hd.next hi horder.1 hnext with ⟨hended, hd'⟩ | ⟨c, hreports, hended⟩
    · rw [← hended]
      refine (ih (inv_next hi horder.1 hnext) hd' hrest (horder.2 t hnext)).imp id ?_
      rintro ⟨bs, u, c, hbs, hrun', hc⟩
      refine ⟨a :: bs, u, c, (List.prefix_cons_inj a).mpr hbs, ?_, hc⟩
      exact (taskletSystem reqs).runFrom_cons_eq_some.mpr ⟨t, hnext, hrun'⟩
    · refine .inr ⟨[a], t, c, (List.prefix_cons_inj a).mpr List.nil_prefix, ?_, hended, hreports⟩
      exact (taskletSystem reqs).runFrom_cons_eq_some.mpr ⟨t, hnext, rfl⟩

/-- **No error of the data is lost.** If in a state of a run the data of a request is on the host
and its status has an error, then the request is still on the host in the end of the run, or the next
request that is given back is this one, with an error of its command or of its data. -/
theorem data_error_reported {before after : List Action}
    (hrun : (taskletSystem reqs).run before = some s)
    (horder : (taskletSystem reqs).Obeys InOrder (taskletSystem reqs).init before)
    (hmrq : s.host.mrq = some m) (hdata : s.host.data = true)
    (hfailed : s.host.dataStatus &&& dataErrorFlags ≠ 0)
    (hrun' : (taskletSystem reqs).runFrom s after = some s')
    (horder' : (taskletSystem reqs).Obeys InOrder s after) :
    s'.host.ended = s.host.ended ∧ s'.host.mrq = some m ∨
      ∃ bs u c, bs <+: after ∧ (taskletSystem reqs).runFrom s bs = some u ∧
        u.host.ended = s.host.ended ++ [c] ∧ c.mrq = m ∧
          (c.cmdError .cmd ≠ 0 ∨ c.dataError ≠ 0) :=
  reported_of_doomed (inv_of_run hrun horder) ⟨hmrq, .inl ⟨hdata, hfailed⟩⟩ hrun' horder'

theorem data_error_reported_sampleRun :
    ∃ bs u c, bs <+: sampleRun.drop 15 ∧
      (taskletSystem fun _ => readMrq).runFrom (afterRun (sampleRun.take 15)) bs = some u ∧
        u.host.ended = (afterRun (sampleRun.take 15)).host.ended ++ [c] ∧ c.mrq = 1 ∧
          (c.cmdError .cmd ≠ 0 ∨ c.dataError ≠ 0) := by
  refine (data_error_reported (run_eq_afterRun (by decide +kernel)) (by decide +kernel)
    (by decide +kernel) (by decide +kernel) (by decide +kernel)
    (Option.some_get (by decide +kernel)).symm (by decide +kernel)).resolve_left fun hend => ?_
  exact absurd hend.2 (by decide +kernel)

end LinuxDriver.DwMmc.Tasklet
