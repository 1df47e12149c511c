import LinuxDriver.Sdhci.Requests

/-!
# Where the requests of an SDHCI host are

A request that was issued is on the lines of the host, or done and not given back, or has been given
back, and it is given back once. The lines are consistent: data is moved for the command that uses
the data lines, and only the command that was let in during a transfer is on the command line
together with another request.

The driver takes a request off the lines and puts it among the done ones in several steps, so the
accounting is stated with a set of requests that are on the lines or in the hands of the driver.

## Main definitions

* `owners`: the requests on the lines.
* `Lines`, `Accounted`, `Good`: the lines, the accounting, and both between two steps.
* `IssuesInTurn`: what the layer above ensures of a new request.

## Main results

* `accounted_sdhciFinishMrq`, `good_sdhciSendCommand`, `good_sdhciFinishData`.
* `good_next`: the step lemma.
* `requests_accounted`: where the requests are, in every run.
-/

namespace LinuxDriver.Sdhci

variable {reqs : ℕ → Mrq} {cfg : HostConfig} {s s' : Host} {m : ℕ} {c : CmdRef}
  {issued : List ℕ} {W : Finset ℕ}

/-! ### The invariants -/

/-- The requests on the lines. -/
def owners (s : Host) : Finset ℕ :=
  (s.cmd.map CmdRef.mrq).toFinset ∪ (s.dataCmd.map CmdRef.mrq).toFinset ∪ s.data.toFinset

theorem mem_owners : m ∈ owners s ↔
    (∃ c, s.cmd = some c ∧ c.mrq = m) ∨ (∃ c, s.dataCmd = some c ∧ c.mrq = m) ∨
      s.data = some m := by
  simp [owners]

/-- A command that needs the command line only. -/
def Simple (reqs : ℕ → Mrq) (mrq : ℕ) : Prop :=
  (reqs mrq).data = false ∧ (reqs mrq).cmd.rspBusy = false ∧ (reqs mrq).capCmdDuringTfr = false

instance (mrq : ℕ) : Decidable (Simple reqs mrq) := inferInstanceAs (Decidable (_ ∧ _ ∧ _))

/-- The second request was let in while the first one still uses the data lines. -/
def Overlap (reqs : ℕ → Mrq) (s : Host) (a b : ℕ) : Prop :=
  s.commandDone a = true ∧ Simple reqs b

/-- The request has the command that a pointer leads to. -/
def Member (reqs : ℕ → Mrq) (c : CmdRef) : Prop :=
  (c.role = .sbc → (reqs c.mrq).sbc.isSome) ∧ (c.role = .stop → (reqs c.mrq).stop.isSome)

theorem Member.data (hc : Member reqs c) (h : c.role ≠ .cmd) : (reqs c.mrq).data = true := by
  cases hrole : c.role with
  | sbc => exact (reqs c.mrq).sbc_data (hc.1 hrole)
  | cmd => exact absurd hrole h
  | stop => exact (reqs c.mrq).stop_data (hc.2 hrole)

/-- What the pointers of the host have to do with each other. -/
structure Lines (reqs : ℕ → Mrq) (s : Host) : Prop where
  data_owner : ∀ m, s.data = some m → s.dataCmd = some ⟨m, .cmd⟩ ∧ (reqs m).data = true
  dataCmd_line : ∀ c, s.dataCmd = some c → sdhciDataLineCmd reqs c = true
  dataCmd_data : ∀ c, s.dataCmd = some c → hasData reqs c = true → s.data = some c.mrq
  cmd_data : ∀ c, s.cmd = some c → hasData reqs c = true → s.data = some c.mrq
  same : ∀ c d, s.cmd = some c → s.dataCmd = some d → c.mrq = d.mrq → c = d
  member : ∀ c, s.cmd = some c ∨ s.dataCmd = some c → Member reqs c
  undone : ∀ c, s.cmd = some c → s.commandDone c.mrq = false
  early : ∀ m, s.data = some m → s.dataEarly = true → s.commandDone m = false

/-- What is not given back: the done requests, and those of `W`. -/
def held (s : Host) (W : Finset ℕ) : Multiset ℕ := SlotTable.contents s.mrqsDone + W.val

/-- The accounting, with the requests on the lines or in the hands of the driver. -/
structure Accounted (reqs : ℕ → Mrq) (issued : List ℕ) (s : Host) (W : Finset ℕ) : Prop where
  owners_le : owners s ⊆ W
  conserved : (issued : Multiset ℕ) = ↑s.ended + held s W
  nodup : (held s W).Nodup
  small : (held s W).card ≤ 2
  pair : ∀ a ∈ held s W, ∀ b ∈ held s W, a ≠ b → Overlap reqs s a b ∨ Overlap reqs s b a
  cap : ∀ m, s.commandDone m = true → (reqs m).capCmdDuringTfr = true
  scheduled : (∃ i, s.mrqsDone i ≠ none) → s.scheduled = true ∨ W.Nonempty
  unwarned : s.warned = false

/-- The state between two steps. -/
structure Good (reqs : ℕ → Mrq) (issued : List ℕ) (s : Host) : Prop extends Lines reqs s where
  accounted : Accounted reqs issued s (owners s)

/-! ### Requests that are finished -/

theorem owners_clearMrq (s : Host) (m : ℕ) : owners (clearMrq s m) = (owners s).erase m := by
  ext a
  simp only [mem_owners, clearMrq, Finset.mem_erase, Option.filter_eq_some_iff, decide_eq_true_eq]
  constructor
  · rintro (⟨c, ⟨hc, hne⟩, rfl⟩ | ⟨c, ⟨hc, hne⟩, rfl⟩ | ⟨hd, hne⟩)
    · exact ⟨hne, .inl ⟨c, hc, rfl⟩⟩
    · exact ⟨hne, .inr (.inl ⟨c, hc, rfl⟩)⟩
    · exact ⟨hne, .inr (.inr hd)⟩
  · rintro ⟨hne, ⟨c, hc, rfl⟩ | ⟨c, hc, rfl⟩ | hd⟩
    · exact .inl ⟨c, ⟨hc, hne⟩, rfl⟩
    · exact .inr (.inl ⟨c, ⟨hc, hne⟩, rfl⟩)
    · exact .inr (.inr ⟨hd, hne⟩)

/-- The pointers to the other requests keep what they have to do with each other. -/
theorem Lines.clearMrq (hl : Lines reqs s) (m : ℕ) : Lines reqs (clearMrq s m) := by
  have hcmd : ∀ c, (Sdhci.clearMrq s m).cmd = some c ↔ s.cmd = some c ∧ c.mrq ≠ m := fun c => by
    simp [Sdhci.clearMrq, Option.filter_eq_some_iff]
  have hdataCmd : ∀ c, (Sdhci.clearMrq s m).dataCmd = some c ↔ s.dataCmd = some c ∧ c.mrq ≠ m :=
    fun c => by simp [Sdhci.clearMrq, Option.filter_eq_some_iff]
  have hdata : ∀ a, (Sdhci.clearMrq s m).data = some a ↔ s.data = some a ∧ a ≠ m := fun a => by
    simp [Sdhci.clearMrq, Option.filter_eq_some_iff]
  refine ⟨fun a ha => ?_, fun c hc => ?_, fun c hc hd => ?_, fun c hc hd => ?_,
    fun c d hc hd => ?_, fun c hc => ?_, fun c hc => ?_, fun a ha => ?_⟩
  · obtain ⟨hs, hne⟩ := (hdata a).mp ha
    exact ⟨(hdataCmd _).mpr ⟨(hl.data_owner a hs).1, hne⟩, (hl.data_owner a hs).2⟩
  · exact hl.dataCmd_line c ((hdataCmd c).mp hc).1
  · obtain ⟨hs, hne⟩ := (hdataCmd c).mp hc
    exact (hdata _).mpr ⟨hl.dataCmd_data c hs hd, hne⟩
  · obtain ⟨hs, hne⟩ := (hcmd c).mp hc
    exact (hdata _).mpr ⟨hl.cmd_data c hs hd, hne⟩
  · exact hl.same c d ((hcmd c).mp hc).1 ((hdataCmd d).mp hd).1
  · exact hl.member c (hc.imp (fun h => ((hcmd c).mp h).1) fun h => ((hdataCmd c).mp h).1)
  · exact hl.undone c ((hcmd c).mp hc).1
  · exact hl.early a ((hdata a).mp ha).1

/-- The lines only depend on the pointers, and on what was said about their requests. -/
theorem Lines.congr (hl : Lines reqs s) (hcmd : s'.cmd = s.cmd) (hdataCmd : s'.dataCmd = s.dataCmd)
    (hdata : s'.data = s.data) (hearly : s'.dataEarly = s.dataEarly)
    (hdone : ∀ a ∈ owners s, s'.commandDone a = s.commandDone a) : Lines reqs s' := by
  refine ⟨?_, ?_, ?_, ?_, ?_, ?_, ?_, ?_⟩
  · rw [hdata, hdataCmd]
    exact hl.data_owner
  · rw [hdataCmd]
    exact hl.dataCmd_line
  · rw [hdataCmd, hdata]
    exact hl.dataCmd_data
  · rw [hcmd, hdata]
    exact hl.cmd_data
  · rw [hcmd, hdataCmd]
    exact hl.same
  · rw [hcmd, hdataCmd]
    exact hl.member
  · intro c hc
    rw [hcmd] at hc
    rw [hdone c.mrq (mem_owners.mpr (.inl ⟨c, hc, rfl⟩))]
    exact hl.undone c hc
  · intro a ha he
    rw [hdata] at ha
    rw [hdone a (mem_owners.mpr (.inr (.inr ha)))]
    exact hl.early a ha (hearly ▸ he)

/-- The accounting does not look at the lines, and goes on with what is said about more requests. -/
theorem Accounted.congr (ha : Accounted reqs issued s W) (howners : owners s' ⊆ W)
    (hmrqsDone : s'.mrqsDone = s.mrqsDone) (hended : s'.ended = s.ended)
    (hdone : ∀ a, s.commandDone a = true → s'.commandDone a = true)
    (hcap : ∀ a, s'.commandDone a = true → (reqs a).capCmdDuringTfr = true)
    (hscheduled : s'.scheduled = s.scheduled) (hwarned : s'.warned = s.warned) :
    Accounted reqs issued s' W := by
  have hheld : held s' W = held s W := by rw [held, hmrqsDone, held]
  refine ⟨howners, ?_, ?_, ?_, ?_, hcap, ?_, ?_⟩
  · rw [hended, hheld]
    exact ha.conserved
  · rw [hheld]
    exact ha.nodup
  · rw [hheld]
    exact ha.small
  · rw [hheld]
    exact fun a hA b hB hab =>
      (ha.pair a hA b hB hab).imp (fun h => ⟨hdone a h.1, h.2⟩) fun h => ⟨hdone b h.1, h.2⟩
  · rw [hmrqsDone, hscheduled]
    exact ha.scheduled
  · rw [hwarned]
    exact ha.unwarned

/-- A request in the hands of the driver is not among the done ones. -/
theorem Accounted.notMem_contents (ha : Accounted reqs issued s W) (hm : m ∈ W) :
    m ∉ SlotTable.contents s.mrqsDone := fun h =>
  Multiset.disjoint_left.mp (Multiset.nodup_add.mp ha.nodup).2.2 h (Finset.mem_val.mpr hm)

/-- There is a free place for a request that is finished. -/
theorem finishMrqSlot_eq (ha : Accounted reqs issued s W) (hm : m ∈ W) :
    ∃ i, s.mrqsDone i = none ∧ finishMrqSlot s m =
      { s with mrqsDone := Function.update s.mrqsDone i (some m), scheduled := true } := by
  have hnot : ¬∃ i, s.mrqsDone i = some m := fun h =>
    ha.notMem_contents hm (SlotTable.mem_contents.mpr h)
  have hcard : (SlotTable.contents s.mrqsDone).card < Fintype.card (Fin 2) := by
    have hsmall := ha.small
    have hpos : 0 < W.card := Finset.card_pos.mpr ⟨m, hm⟩
    rw [held, Multiset.card_add, Finset.card_val] at hsmall
    rw [Fintype.card_fin]
    omega
  obtain ⟨j, hj⟩ := SlotTable.exists_free hcard
  unfold finishMrqSlot
  rw [if_neg hnot]
  cases hfind : (List.finRange 2).find? fun i => s.mrqsDone i = none with
  | none => exact absurd hj (by simpa using List.find?_eq_none.mp hfind j (List.mem_finRange j))
  | some i => exact ⟨i, by simpa using List.find?_some hfind, rfl⟩

/-- A request put among the done ones. -/
theorem accounted_finishMrqSlot (ha : Accounted reqs issued s W) (hm : m ∈ W)
    (howners : owners s ⊆ W.erase m) : Accounted reqs issued (finishMrqSlot s m) (W.erase m) := by
  obtain ⟨i, hi, heq⟩ := finishMrqSlot_eq ha hm
  have hheld : held (finishMrqSlot s m) (W.erase m) = held s W := by
    rw [heq, held, held, SlotTable.contents_update_some hi, Finset.erase_val, Multiset.cons_add,
      ← Multiset.add_cons, Multiset.cons_erase (Finset.mem_val.mpr hm)]
  have hpair := ha.pair
  refine ⟨?_, ?_, ?_, ?_, ?_, ?_, fun _ => .inl (by rw [heq]), ?_⟩
  · rw [heq]
    exact howners
  · rw [hheld, heq]
    exact ha.conserved
  · rw [hheld]
    exact ha.nodup
  · rw [hheld]
    exact ha.small
  · rw [hheld, heq]
    exact ha.pair
  · rw [heq]
    exact ha.cap
  · rw [heq]
    exact ha.unwarned

/-- What is done with the lines when a request is finished. -/
theorem finishMrqSlot_frame (s : Host) (m : ℕ) :
    (finishMrqSlot s m).cmd = s.cmd ∧ (finishMrqSlot s m).dataCmd = s.dataCmd ∧
      (finishMrqSlot s m).data = s.data ∧ (finishMrqSlot s m).dataEarly = s.dataEarly ∧
      (finishMrqSlot s m).commandDone = s.commandDone ∧ (finishMrqSlot s m).timer = s.timer ∧
      (finishMrqSlot s m).dataTimer = s.dataTimer := by
  unfold finishMrqSlot
  split_ifs
  · exact ⟨rfl, rfl, rfl, rfl, rfl, rfl, rfl⟩
  · split <;> exact ⟨rfl, rfl, rfl, rfl, rfl, rfl, rfl⟩

theorem owners_sdhciFinishMrq (s : Host) (m : ℕ) :
    owners (sdhciFinishMrq reqs cfg s m) = (owners s).erase m := by
  obtain ⟨hcmd, hdataCmd, hdata, -⟩ := finishMrqSlot_frame
    { clearMrq s m with
      pendingReset := (clearMrq s m).pendingReset || sdhciNeedsReset reqs cfg s m } m
  rw [← owners_clearMrq]
  unfold owners sdhciFinishMrq
  rw [hcmd, hdataCmd, hdata]

/-- **A request is finished.** It leaves the lines or the hands of the driver, and is done. -/
theorem good_sdhciFinishMrq (hl : Lines reqs (clearMrq s m)) (ha : Accounted reqs issued s W)
    (hm : m ∈ W) (hW : W ⊆ insert m (owners s)) :
    Good reqs issued (sdhciFinishMrq reqs cfg s m) := by
  set s₁ : Host := { clearMrq s m with
    pendingReset := (clearMrq s m).pendingReset || sdhciNeedsReset reqs cfg s m } with hs₁
  have howners : owners s₁ = (owners s).erase m := owners_clearMrq s m
  have hW' : W.erase m = (owners s).erase m := by
    refine Finset.Subset.antisymm ?_ (Finset.erase_subset_erase m ha.owners_le)
    intro a hA
    obtain ⟨hne, hmem⟩ := Finset.mem_erase.mp hA
    exact Finset.mem_erase.mpr ⟨hne, (Finset.mem_insert.mp (hW hmem)).resolve_left hne⟩
  have ha₁ : Accounted reqs issued s₁ W :=
    ha.congr (by rw [howners]; exact (Finset.erase_subset _ _).trans ha.owners_le) rfl rfl
      (fun _ => id) ha.cap rfl rfl
  obtain ⟨hcmd, hdataCmd, hdata, hearly, hdone, -⟩ := finishMrqSlot_frame s₁ m
  have hl₁ : Lines reqs s₁ := hl.congr rfl rfl rfl rfl fun _ _ => rfl
  refine ⟨hl₁.congr hcmd hdataCmd hdata hearly
    fun a _ => congrFun hdone a, ?_⟩
  change Accounted reqs issued (finishMrqSlot s₁ m) (owners (finishMrqSlot s₁ m))
  have hfinal : owners (finishMrqSlot s₁ m) = W.erase m := by
    unfold owners
    rw [hcmd, hdataCmd, hdata, hW', ← howners]
    rfl
  rw [hfinal]
  exact accounted_finishMrqSlot ha₁ hm (by rw [howners, hW'])

/-- A request on the lines is finished. -/
theorem Good.finishMrq (hg : Good reqs issued s) (hm : m ∈ owners s) :
    Good reqs issued (sdhciFinishMrq reqs cfg s m) :=
  good_sdhciFinishMrq (hg.toLines.clearMrq m) hg.accounted hm (Finset.subset_insert _ _)

/-! ### Commands that are sent -/

/-- The errors, the timers and the wait for a reset do not matter for the accounting. -/
theorem Good.congr (hg : Good reqs issued s) (hcmd : s'.cmd = s.cmd)
    (hdataCmd : s'.dataCmd = s.dataCmd) (hdata : s'.data = s.data)
    (hearly : s'.dataEarly = s.dataEarly) (hdone : s'.commandDone = s.commandDone)
    (hmrqsDone : s'.mrqsDone = s.mrqsDone) (hended : s'.ended = s.ended)
    (hscheduled : s'.scheduled = s.scheduled) (hwarned : s'.warned = s.warned) :
    Good reqs issued s' := by
  have howners : owners s' = owners s := by rw [owners, hcmd, hdataCmd, hdata, owners]
  refine ⟨hg.toLines.congr hcmd hdataCmd hdata hearly fun a _ => congrFun hdone a, ?_⟩
  rw [howners]
  exact hg.accounted.congr (Finset.Subset.antisymm_iff.mp howners).1 hmrqsDone hended
    (fun a h => (congrFun hdone a).trans h)
    (fun a h => hg.accounted.cap a ((congrFun hdone a).symm.trans h)) hscheduled hwarned

theorem Good.setCmdError (hg : Good reqs issued s) (c : CmdRef) (error : ℤ) :
    Good reqs issued (s.setCmdError c error) :=
  hg.congr rfl rfl rfl rfl rfl rfl rfl rfl rfl

theorem Good.setDataError (hg : Good reqs issued s) (m : ℕ) (error : ℤ) :
    Good reqs issued (s.setDataError m error) :=
  hg.congr rfl rfl rfl rfl rfl rfl rfl rfl rfl

theorem Good.sdhciModTimer (hg : Good reqs issued s) (m : ℕ) :
    Good reqs issued (sdhciModTimer reqs s m) := by
  unfold Sdhci.sdhciModTimer
  split_ifs
  · exact hg.congr rfl rfl rfl rfl rfl rfl rfl rfl rfl
  · exact hg.congr rfl rfl rfl rfl rfl rfl rfl rfl rfl

theorem Good.sdhciDelTimer (hg : Good reqs issued s) (m : ℕ) :
    Good reqs issued (sdhciDelTimer reqs s m) := by
  unfold Sdhci.sdhciDelTimer
  split_ifs
  · exact hg.congr rfl rfl rfl rfl rfl rfl rfl rfl rfl
  · exact hg.congr rfl rfl rfl rfl rfl rfl rfl rfl rfl

/-- What must be so when a command is sent: the command line is free, and the data lines are if the
command uses them; its request is not on the lines, and nothing was said about it. -/
structure Sendable (reqs : ℕ → Mrq) (s : Host) (c : CmdRef) : Prop where
  cmd : s.cmd = none
  dataCmd : sdhciDataLineCmd reqs c = true → s.dataCmd = none
  notMem : c.mrq ∉ owners s
  member : Member reqs c
  undone : s.commandDone c.mrq = false

theorem hasData_le (c : CmdRef) (h : hasData reqs c = true) : sdhciDataLineCmd reqs c = true := by
  simp [sdhciDataLineCmd, h]

theorem Sendable.data_none (hs : Sendable reqs s c) (hl : Lines reqs s)
    (hline : sdhciDataLineCmd reqs c = true) : s.data = none := by
  by_contra hne
  obtain ⟨a, ha⟩ := Option.ne_none_iff_exists'.mp hne
  exact nomatch (hs.dataCmd hline).symm.trans (hl.data_owner a ha).1

/-- The host with a command on its lines. -/
theorem lines_prepared (hl : Lines reqs s) (hs : Sendable reqs s c) :
    Lines reqs (sdhciPrepareData reqs (occupyLines reqs s c) c) := by
  by_cases hdata : hasData reqs c = true
  · -- the command of a transfer takes all the lines
    have hline := hasData_le c hdata
    have hc : c = ⟨c.mrq, .cmd⟩ ∧ (reqs c.mrq).data = true := by
      obtain ⟨m, role⟩ := c
      simp only [hasData, Bool.decide_and, Bool.decide_eq_true, Bool.and_eq_true,
        decide_eq_true_eq] at hdata
      obtain ⟨rfl, hd⟩ := hdata
      exact ⟨rfl, hd⟩
    have heq : sdhciPrepareData reqs (occupyLines reqs s c) c = { s with
        cmd := some c, dataCmd := some c, data := some c.mrq, dataEarly := false,
        warned := (s.warned || s.dataCmd.isSome) || s.data.isSome } := by
      simp [sdhciPrepareData, occupyLines, hdata, hline]
    rw [heq]
    refine ⟨fun a ha => ?_, fun d hd => ?_, fun d hd _ => ?_, fun d hd _ => ?_, fun d e hd he _ => ?_,
      fun d hd => ?_, fun d hd => ?_, fun a _ he => nomatch he⟩
    · obtain rfl : c.mrq = a := Option.some.inj ha
      exact ⟨congrArg some hc.1, hc.2⟩
    · obtain rfl : c = d := Option.some.inj hd
      exact hline
    · obtain rfl : c = d := Option.some.inj hd
      rfl
    · obtain rfl : c = d := Option.some.inj hd
      rfl
    · exact (Option.some.inj hd).symm.trans (Option.some.inj he)
    · obtain rfl : c = d := hd.elim Option.some.inj Option.some.inj
      exact hs.member
    · obtain rfl : c = d := Option.some.inj hd
      exact hs.undone
  · have heq : sdhciPrepareData reqs (occupyLines reqs s c) c = occupyLines reqs s c :=
      if_neg hdata
    rw [heq]
    by_cases hline : sdhciDataLineCmd reqs c = true
    · -- a busy command: no data is moved
      rw [occupyLines, if_pos hline]
      have hnone := hs.data_none hl hline
      refine ⟨fun a ha => ?_, fun d hd => ?_, fun d hd hdd => ?_, fun d hd hdd => ?_,
        fun d e hd he _ => ?_, fun d hd => ?_, fun d hd => ?_, fun a ha => ?_⟩
      · exact nomatch hnone.symm.trans ha
      · obtain rfl : c = d := Option.some.inj hd
        exact hline
      · obtain rfl : c = d := Option.some.inj hd
        exact absurd hdd hdata
      · obtain rfl : c = d := Option.some.inj hd
        exact absurd hdd hdata
      · exact (Option.some.inj hd).symm.trans (Option.some.inj he)
      · obtain rfl : c = d := hd.elim Option.some.inj Option.some.inj
        exact hs.member
      · obtain rfl : c = d := Option.some.inj hd
        exact hs.undone
      · exact nomatch hnone.symm.trans ha
    · rw [occupyLines, if_neg hline]
      refine ⟨hl.data_owner, hl.dataCmd_line, hl.dataCmd_data, fun d hd hdd => ?_,
        fun d e hd he hde => ?_, fun d hd => ?_, fun d hd => ?_, hl.early⟩
      · obtain rfl : c = d := Option.some.inj hd
        exact absurd hdd hdata
      · obtain rfl : c = d := Option.some.inj hd
        exact (hs.notMem (mem_owners.mpr (.inr (.inl ⟨e, he, hde.symm⟩)))).elim
      · rcases hd with hd | hd
        · obtain rfl : c = d := Option.some.inj hd
          exact hs.member
        · exact hl.member d (.inr hd)
      · obtain rfl : c = d := Option.some.inj hd
        exact hs.undone

theorem owners_prepared (hs : Sendable reqs s c) (hl : Lines reqs s) :
    owners (sdhciPrepareData reqs (occupyLines reqs s c) c) = insert c.mrq (owners s) := by
  ext a
  by_cases hdata : hasData reqs c = true
  · have hline := hasData_le c hdata
    have hdn := hs.data_none hl hline
    simp [owners, sdhciPrepareData, occupyLines, hdata, hline, hs.cmd, hs.dataCmd hline, hdn]
  · by_cases hline : sdhciDataLineCmd reqs c = true
    · simp [owners, sdhciPrepareData, occupyLines, hdata, hline, hs.cmd, hs.dataCmd hline]
    · simp [owners, sdhciPrepareData, occupyLines, hdata, hline, hs.cmd]

/-- No warning is met when a command is put onto its lines. -/
theorem warned_prepared (hs : Sendable reqs s c) (hl : Lines reqs s) :
    (sdhciPrepareData reqs (occupyLines reqs s c) c).warned = s.warned := by
  by_cases hdata : hasData reqs c = true
  · have hline := hasData_le c hdata
    have hdn := hs.data_none hl hline
    simp [sdhciPrepareData, occupyLines, hdata, hline, hs.dataCmd hline, hdn]
  · by_cases hline : sdhciDataLineCmd reqs c = true
    · simp [sdhciPrepareData, occupyLines, hdata, hline, hs.dataCmd hline]
    · simp [sdhciPrepareData, occupyLines, hdata, hline]

theorem prepared_frame (reqs : ℕ → Mrq) (s : Host) (c : CmdRef) :
    (sdhciPrepareData reqs (occupyLines reqs s c) c).mrqsDone = s.mrqsDone ∧
      (sdhciPrepareData reqs (occupyLines reqs s c) c).ended = s.ended ∧
      (sdhciPrepareData reqs (occupyLines reqs s c) c).commandDone = s.commandDone ∧
      (sdhciPrepareData reqs (occupyLines reqs s c) c).scheduled = s.scheduled := by
  unfold sdhciPrepareData occupyLines
  split_ifs <;> exact ⟨rfl, rfl, rfl, rfl⟩

/-- **A command is sent.** Its request goes from the hands of the driver onto the lines, or is done
with an error. -/
theorem good_sdhciSendCommand (hl : Lines reqs s) (hs : Sendable reqs s c)
    (ha : Accounted reqs issued s (insert c.mrq (owners s))) (stuck : Bool) :
    Good reqs issued (sdhciSendCommand reqs cfg s c stuck) := by
  set s₁ : Host := { s.setCmdError c 0 with warned := s.warned || s.cmd.isSome } with hs₁
  have hwarned : s₁.warned = s.warned := by rw [hs₁, hs.cmd, Option.isSome_none, Bool.or_false]
  have hl₁ : Lines reqs s₁ := hl.congr rfl rfl rfl rfl fun _ _ => rfl
  have ha₁ : Accounted reqs issued s₁ (insert c.mrq (owners s)) :=
    ha.congr ha.owners_le rfl rfl (fun _ => id) ha.cap rfl hwarned
  have hsend : Sendable reqs s₁ c := ⟨hs.cmd, hs.dataCmd, hs.notMem, hs.member, hs.undone⟩
  unfold sdhciSendCommand
  cases stuck with
  | true =>
    refine good_sdhciFinishMrq (W := insert c.mrq (owners s)) (Lines.clearMrq ?_ _) ?_
      (Finset.mem_insert_self _ _) (Finset.Subset.refl _)
    · exact hl₁.congr rfl rfl rfl rfl fun _ _ => rfl
    · exact ha₁.congr ha₁.owners_le rfl rfl (fun _ => id) ha₁.cap rfl rfl
  | false =>
    obtain ⟨hmrqsDone, hended, hdone, hscheduled⟩ := prepared_frame reqs s₁ c
    have howners := owners_prepared hsend hl₁
    have hg : Good reqs issued (sdhciPrepareData reqs (occupyLines reqs s₁ c) c) := by
      refine ⟨lines_prepared hl₁ hsend, ?_⟩
      rw [howners]
      refine ha₁.congr howners.subset hmrqsDone hended (fun a h => ?_) (fun a h => ?_) hscheduled
        (warned_prepared hsend hl₁)
      · rwa [hdone]
      · exact ha₁.cap a (by rwa [hdone] at h)
    dsimp only
    rw [if_neg Bool.false_ne_true]
    split_ifs
    · refine (hg.setCmdError c (-einval)).finishMrq ?_
      change c.mrq ∈ owners (sdhciPrepareData reqs (occupyLines reqs s₁ c) c)
      rw [howners]
      exact Finset.mem_insert_self _ _
    · exact hg.sdhciModTimer c.mrq

/-! ### The end of a transfer -/

/-- While the data of a request is moved, the command line is its own or, if other commands are let
in, has another one. -/
theorem Accounted.cmd_mrq_eq (ha : Accounted reqs issued s (owners s)) (hd : s.data = some m)
    (hdata : (reqs m).data = true) (hcap : (reqs m).capCmdDuringTfr = false)
    (hc : s.cmd = some c) : c.mrq = m := by
  by_contra hne
  have hmem : ∀ a ∈ owners s, a ∈ held s (owners s) := fun a h =>
    Multiset.mem_add.mpr (.inr (Finset.mem_val.mpr h))
  rcases ha.pair c.mrq (hmem _ (mem_owners.mpr (.inl ⟨c, hc, rfl⟩))) m
    (hmem _ (mem_owners.mpr (.inr (.inr hd)))) hne with h | h
  · exact absurd (h.2.1.symm.trans hdata) (by decide)
  · exact absurd (hcap.symm.trans (ha.cap m h.1)) (by decide)

/-- **A transfer ends.** Its request is done, or is stopped by a command. -/
theorem good_sdhciFinishData (hd : s.data = some m) (hdc : s.dataCmd = some ⟨m, .cmd⟩)
    (hdata : (reqs m).data = true) (hl : Lines reqs (clearMrq s m))
    (ha : Accounted reqs issued s (owners s)) (stuck : Bool) :
    Good reqs issued (sdhciFinishData reqs cfg s stuck) := by
  have hm : m ∈ owners s := mem_owners.mpr (.inr (.inr hd))
  set s₁ : Host := { s with data := none, dataCmd := none } with hs₁
  have hle : owners s₁ ⊆ owners s := fun a h => by
    obtain ⟨c, hc, hcm⟩ | ⟨c, hc, -⟩ | hda := mem_owners.mp h
    · exact mem_owners.mpr (.inl ⟨c, hc, hcm⟩)
    · exact nomatch hc
    · exact nomatch hda
  have hge : owners s ⊆ insert m (owners s₁) := fun a h => by
    obtain ⟨c, hc, hcm⟩ | ⟨c, hc, rfl⟩ | hda := mem_owners.mp h
    · exact Finset.mem_insert_of_mem (mem_owners.mpr (.inl ⟨c, hc, hcm⟩))
    · obtain rfl := Option.some.inj (hdc.symm.trans hc)
      exact Finset.mem_insert_self _ _
    · obtain rfl := Option.some.inj (hd.symm.trans hda)
      exact Finset.mem_insert_self _ _
  have hl₁ : Lines reqs (clearMrq s₁ m) :=
    hl.congr rfl (by simp [hs₁, clearMrq, hdc, Option.filter_some])
      (by simp [hs₁, clearMrq, hd, Option.filter_some]) rfl fun _ _ => rfl
  have ha₁ : Accounted reqs issued s₁ (owners s) :=
    ha.congr hle rfl rfl (fun _ => id) ha.cap rfl rfl
  have hfinish : Good reqs issued (sdhciFinishMrq reqs cfg s₁ m) :=
    good_sdhciFinishMrq hl₁ ha₁ hm hge
  unfold sdhciFinishData
  rw [hd]
  dsimp only
  split_ifs with hstop hcap
  · exact hfinish
  · -- nothing but the data is on the lines when the command that stops it is sent
    have hcap' : (reqs m).capCmdDuringTfr = false := by simpa using hcap
    have hempty : owners { s₁ with cmd := none } = ∅ := by simp [owners, hs₁]
    have hinsert : insert m (owners { s₁ with cmd := none }) = owners s := by
      refine Finset.Subset.antisymm ?_ fun a h => ?_
      · rw [hempty]
        exact Finset.insert_subset hm (Finset.empty_subset _)
      · obtain ⟨c, hc, rfl⟩ | ⟨c, hc, rfl⟩ | hda := mem_owners.mp h
        · rw [ha.cmd_mrq_eq hd hdata hcap' hc]
          exact Finset.mem_insert_self _ _
        · obtain rfl := Option.some.inj (hdc.symm.trans hc)
          exact Finset.mem_insert_self _ _
        · obtain rfl := Option.some.inj (hd.symm.trans hda)
          exact Finset.mem_insert_self _ _
    refine good_sdhciSendCommand ?_ ?_ ?_ stuck
    · exact ⟨by simp, by simp, by simp, by simp, by simp, by simp, by simp, by simp⟩
    · refine ⟨rfl, fun _ => rfl, hempty ▸ Finset.notMem_empty _, ⟨nofun, fun _ => ?_⟩, ?_⟩
      · simp only [hasStop, Bool.and_eq_true] at hstop
        exact hstop.1.1
      exact Bool.eq_false_iff.mpr fun h => absurd (hcap'.symm.trans (ha.cap m h)) (by decide)
    · rw [hinsert]
      exact ha₁.congr (hempty ▸ Finset.empty_subset _) rfl rfl (fun _ => id) ha₁.cap rfl rfl
  · exact hfinish

theorem Good.finishData (hg : Good reqs issued s) (hd : s.data = some m) (stuck : Bool) :
    Good reqs issued (sdhciFinishData reqs cfg s stuck) := by
  obtain ⟨hdc, hdata⟩ := hg.data_owner m hd
  exact good_sdhciFinishData hd hdc hdata (hg.toLines.clearMrq m) hg.accounted stuck

/-! ### The end of a command -/

/-- The lines without the command that is complete. -/
theorem Lines.commandDone (hl : Lines reqs s) (hearly : (s.data.isSome && s.dataEarly) = false) :
    Lines reqs (mmcCommandDone reqs { s with cmd := none } c) := by
  have hl₀ : Lines reqs { s with cmd := none } := by
    refine ⟨hl.data_owner, hl.dataCmd_line, hl.dataCmd_data, ?_, ?_, ?_, ?_, hl.early⟩
    · exact fun _ h => nomatch h
    · exact fun _ _ h => nomatch h
    · exact fun d hd => hl.member d (hd.imp (fun h => nomatch h) id)
    · exact fun _ h => nomatch h
  unfold mmcCommandDone
  split_ifs
  · refine ⟨hl₀.data_owner, hl₀.dataCmd_line, hl₀.dataCmd_data, hl₀.cmd_data, hl₀.same, hl₀.member,
      fun _ h => (nomatch h), fun a ha he => ?_⟩
    change s.data = some a at ha
    change s.dataEarly = true at he
    rw [ha, he] at hearly
    exact nomatch hearly
  · exact hl₀

theorem Accounted.commandDone (ha : Accounted reqs issued s (owners s)) :
    Accounted reqs issued (mmcCommandDone reqs { s with cmd := none } c) (owners s) := by
  have howners : owners { s with cmd := none } ⊆ owners s := fun a h =>
    mem_owners.mpr ((mem_owners.mp h).imp (fun ⟨_, h, _⟩ => nomatch h) id)
  unfold mmcCommandDone
  split_ifs with hcap
  · refine ha.congr howners rfl rfl (fun a h => ?_) (fun a h => ?_) rfl rfl
    · by_cases hac : a = c.mrq
      · rw [hac]
        exact Function.update_self _ _ _
      · exact (Function.update_of_ne hac _ _).trans h
    · by_cases hac : a = c.mrq
      · rw [hac]
        exact (Bool.and_eq_true_iff.mp hcap).1
      · exact ha.cap a ((Function.update_of_ne hac _ _).symm.trans h)
  · exact ha.congr howners rfl rfl (fun _ => id) ha.cap rfl rfl

theorem mmcCommandDone_frame (reqs : ℕ → Mrq) (s : Host) (c : CmdRef) :
    (mmcCommandDone reqs s c).cmd = s.cmd ∧ (mmcCommandDone reqs s c).dataCmd = s.dataCmd ∧
      (mmcCommandDone reqs s c).data = s.data ∧
      (mmcCommandDone reqs s c).dataEarly = s.dataEarly := by
  unfold mmcCommandDone
  split_ifs <;> exact ⟨rfl, rfl, rfl, rfl⟩

theorem owners_mmcCommandDone (s : Host) (c : CmdRef) :
    owners (mmcCommandDone reqs s c) = owners s := by
  obtain ⟨hcmd, hdataCmd, hdata, -⟩ := mmcCommandDone_frame reqs s c
  rw [owners, hcmd, hdataCmd, hdata, owners]

/-- A command on the command line is let in by another request, or belongs to the request that uses
the data lines. -/
theorem Good.cmd_eq_dataCmd (hg : Good reqs issued s) {d : CmdRef} (hc : s.cmd = some c)
    (hd : s.dataCmd = some d) : c = d ∨ s.commandDone d.mrq = true ∧ Simple reqs c.mrq := by
  by_cases hne : c.mrq = d.mrq
  · exact .inl (hg.same c d hc hd hne)
  have hmem : ∀ a ∈ owners s, a ∈ held s (owners s) := fun a h =>
    Multiset.mem_add.mpr (.inr (Finset.mem_val.mpr h))
  rcases hg.accounted.pair c.mrq (hmem _ (mem_owners.mpr (.inl ⟨c, hc, rfl⟩))) d.mrq
    (hmem _ (mem_owners.mpr (.inr (.inl ⟨d, hd, rfl⟩)))) hne with h | h
  · exact absurd ((hg.undone c hc).symm.trans h.1) (by decide)
  · exact .inr h

/-- After the block count is set, the lines are free for the command. -/
theorem Good.sendable_cmd (hg : Good reqs issued s) (hc : s.cmd = some c) (hrole : c.role = .sbc) :
    Sendable reqs { s with cmd := none } ⟨c.mrq, .cmd⟩ := by
  have hmember := hg.member c (.inl hc)
  have hnone : s.dataCmd = none := by
    by_contra hne
    obtain ⟨d, hd⟩ := Option.ne_none_iff_exists'.mp hne
    rcases hg.cmd_eq_dataCmd hc hd with rfl | ⟨-, hs⟩
    · have hline := hg.dataCmd_line c hd
      obtain ⟨b, hb⟩ := Option.isSome_iff_exists.mp (hmember.1 hrole)
      have hshort := (reqs c.mrq).sbc_short b hb
      simp [sdhciDataLineCmd, hasData, cmdOf, hrole, hb, hshort] at hline
    · exact absurd (hs.1.symm.trans (hmember.data (by simp [hrole]))) (by decide)
  refine ⟨rfl, fun _ => hnone, fun h => ?_, ⟨nofun, nofun⟩, hg.undone c hc⟩
  obtain ⟨_, h, -⟩ | ⟨_, h, -⟩ | h := mem_owners.mp h
  · exact nomatch h
  · exact nomatch hnone.symm.trans h
  · exact nomatch hnone.symm.trans (hg.data_owner c.mrq h).1

/-- What is taken off the lines with a command that is complete. -/
theorem owners_subset_insert (hc : s.cmd = some c) :
    owners s ⊆ insert c.mrq (owners (mmcCommandDone reqs { s with cmd := none } c)) := by
  rw [owners_mmcCommandDone]
  intro a h
  obtain ⟨d, hd, rfl⟩ | h | h := mem_owners.mp h
  · obtain rfl := Option.some.inj (hc.symm.trans hd)
    exact Finset.mem_insert_self _ _
  · exact Finset.mem_insert_of_mem (mem_owners.mpr (.inr (.inl h)))
  · exact Finset.mem_insert_of_mem (mem_owners.mpr (.inr (.inr h)))

theorem owners_eq_of_keep (hc : s.cmd = some c)
    (hkeep : s.dataCmd = some c ∨ s.data = some c.mrq) :
    owners (mmcCommandDone reqs { s with cmd := none } c) = owners s := by
  refine Finset.Subset.antisymm ?_ ?_
  · rw [owners_mmcCommandDone]
    exact fun a h => mem_owners.mpr ((mem_owners.mp h).imp (fun ⟨_, h, _⟩ => nomatch h) id)
  · refine (owners_subset_insert hc).trans (Finset.insert_subset ?_ (Finset.Subset.refl _))
    rw [owners_mmcCommandDone]
    exact mem_owners.mpr (.inr (hkeep.imp (fun h => ⟨c, h, rfl⟩) id))

/-- The request of a command that is complete may still use the data lines. -/
theorem Good.keepData (hg : Good reqs issued s) (hc : s.cmd = some c)
    (hkeep : s.dataCmd = some c ∨ s.data = some c.mrq)
    (hearly : (s.data.isSome && s.dataEarly) = false) :
    Good reqs issued (mmcCommandDone reqs { s with cmd := none } c) := by
  refine ⟨hg.toLines.commandDone hearly, ?_⟩
  rw [owners_eq_of_keep hc hkeep]
  exact hg.accounted.commandDone

/-- Data that is there early is that of the command on the command line. -/
theorem Good.cmd_eq_of_early (hg : Good reqs issued s) (hc : s.cmd = some c)
    (hd : s.data = some m) (hearly : s.dataEarly = true) : c = ⟨m, .cmd⟩ := by
  rcases hg.cmd_eq_dataCmd hc (hg.data_owner m hd).1 with h | ⟨h, -⟩
  · exact h
  · exact absurd ((hg.early m hd hearly).symm.trans h) (by decide)

/-- **A command is complete.** Its request is done, waits for the data or for the end of the busy
state, or goes on with the command after the block count. -/
theorem Good.finishCommand (hg : Good reqs issued s) (stuck : Bool) :
    Good reqs issued (sdhciFinishCommand reqs cfg s stuck) := by
  unfold sdhciFinishCommand
  cases hc : s.cmd with
  | none => exact hg
  | some c =>
    dsimp only
    set s₁ := mmcCommandDone reqs { s with cmd := none } c with hs₁
    obtain ⟨hcmd, hdataCmd, hdata, hearly⟩ : s₁.cmd = none ∧ s₁.dataCmd = s.dataCmd ∧
        s₁.data = s.data ∧ s₁.dataEarly = s.dataEarly := mmcCommandDone_frame reqs _ c
    have hmem : c.mrq ∈ owners s := mem_owners.mpr (.inl ⟨c, hc, rfl⟩)
    split_ifs with hbusy hsbc hhas hnow hnow
    · -- no data is moved for a command that is only busy
      simp only [Bool.and_eq_true, Bool.not_eq_true', decide_eq_true_eq] at hbusy
      have hdc : s.dataCmd = some c := hdataCmd.symm.trans hbusy.2
      refine hg.keepData hc (.inl hdc) ?_
      cases hd : s.data with
      | none => rfl
      | some m =>
        obtain ⟨hm, hdm⟩ := hg.data_owner m hd
        obtain rfl := Option.some.inj (hdc.symm.trans hm)
        simp [hasData, hdm] at hbusy
    · -- the block count is set
      have hsend := hg.sendable_cmd hc hsbc
      have heq : s₁ = { s with cmd := none } := if_neg (by simp [hsbc])
      have hnot : (s.data.isSome && s.dataEarly) = false := by
        refine Bool.eq_false_iff.mpr fun h => ?_
        obtain ⟨hsome, he⟩ := Bool.and_eq_true_iff.mp h
        obtain ⟨m, hm⟩ := Option.isSome_iff_exists.mp hsome
        rw [hg.cmd_eq_of_early hc hm he] at hsbc
        exact nomatch hsbc
      have hinsert : insert c.mrq (owners s₁) = owners s :=
        Finset.Subset.antisymm
          (Finset.insert_subset hmem hg.accounted.commandDone.owners_le) (owners_subset_insert hc)
      refine good_sdhciSendCommand (hg.toLines.commandDone hnot) (by rwa [← hs₁, heq]) ?_ stuck
      rw [hinsert]
      exact hg.accounted.commandDone
    · -- the data was there early
      obtain ⟨hsome, he⟩ := Bool.and_eq_true_iff.mp hnow
      obtain ⟨m, hm⟩ := Option.isSome_iff_exists.mp hsome
      have hm₀ : s.data = some m := hdata.symm.trans hm
      have hown := hg.cmd_eq_of_early hc hm₀ (hearly.symm.trans he)
      have hmrq : c.mrq = m := congrArg CmdRef.mrq hown
      obtain ⟨hdc, hdm⟩ := hg.data_owner m hm₀
      have howners : owners s₁ = owners s := owners_eq_of_keep hc (.inr (hmrq ▸ hm₀))
      have hl : Lines reqs (clearMrq s₁ m) := by
        refine (hg.toLines.clearMrq m).congr ?_ ?_ ?_ hearly fun a ha => ?_
        · change s₁.cmd.filter _ = s.cmd.filter _
          rw [hcmd, hc]
          simp [hmrq, Option.filter_some]
        · change s₁.dataCmd.filter _ = _
          rw [hdataCmd]
          rfl
        · change s₁.data.filter _ = _
          rw [hdata]
          rfl
        · rw [owners_clearMrq, Finset.mem_erase] at ha
          change s₁.commandDone a = s.commandDone a
          rw [hs₁, mmcCommandDone]
          split_ifs
          · exact Function.update_of_ne (hmrq ▸ ha.1) _ _
          · rfl
      refine good_sdhciFinishData hm (hdataCmd.trans hdc) hdm hl ?_ stuck
      rw [howners]
      exact hg.accounted.commandDone
    · refine hg.keepData hc (.inr (hg.cmd_data c hc hhas)) ?_
      exact Bool.eq_false_iff.mpr fun h => hnow (by rwa [hdata, hearly])
    · obtain ⟨hsome, he⟩ := Bool.and_eq_true_iff.mp hnow
      obtain ⟨m, hm⟩ := Option.isSome_iff_exists.mp hsome
      have hm₀ : s.data = some m := hdata.symm.trans hm
      have hown := hg.cmd_eq_of_early hc hm₀ (hearly.symm.trans he)
      simp [hown, hasData, (hg.data_owner m hm₀).2] at hhas
    · have hnot : (s.data.isSome && s.dataEarly) = false :=
        Bool.eq_false_iff.mpr fun h => hnow (by rwa [hdata, hearly])
      exact good_sdhciFinishMrq ((hg.toLines.commandDone hnot).clearMrq _)
        hg.accounted.commandDone hmem (owners_subset_insert hc)

/-! ### Interrupts, timers and the removal of the card -/

/-- The data goes on without its command. -/
theorem Good.dropCmd (hg : Good reqs issued s) (hc : s.cmd = some c)
    (hdata : hasData reqs c = true) : Good reqs issued { s with cmd := none } := by
  have hd : s.data = some c.mrq := hg.cmd_data c hc hdata
  refine ⟨⟨hg.data_owner, hg.dataCmd_line, hg.dataCmd_data, fun _ h => (nomatch h),
    fun _ _ h => (nomatch h), fun e he => hg.member e (he.imp (fun h => nomatch h) id),
    fun _ h => (nomatch h), hg.early⟩, ?_⟩
  have howners : owners { s with cmd := none } = owners s := by
    ext a
    refine ⟨fun h => ?_, fun h => ?_⟩
    · obtain ⟨_, h, -⟩ | h := mem_owners.mp h
      · exact nomatch h
      · exact mem_owners.mpr (.inr h)
    · obtain ⟨e, he, rfl⟩ | h := mem_owners.mp h
      · obtain rfl := Option.some.inj (hc.symm.trans he)
        exact mem_owners.mpr (.inr (.inr hd))
      · exact mem_owners.mpr (.inr h)
  rw [howners]
  exact hg.accounted.congr howners.subset rfl rfl (fun _ => id) hg.accounted.cap rfl rfl

theorem Good.cmdIrq (hg : Good reqs issued s) (intmask : CmdInt) (stuck : Bool) :
    Good reqs issued (sdhciCmdIrq reqs cfg s intmask stuck) := by
  unfold sdhciCmdIrq
  cases hc : s.cmd with
  | none => exact hg
  | some c =>
    dsimp only
    have hmem : c.mrq ∈ owners s := mem_owners.mpr (.inl ⟨c, hc, rfl⟩)
    generalize (if intmask.timeout then -etimedout else -eilseq) = error
    split_ifs with herr hcrc hresp
    · simp only [Bool.and_eq_true] at hcrc
      exact (hg.setCmdError c error).dropCmd hc hcrc.1.1
    · exact (hg.setCmdError c error).finishMrq hmem
    · exact hg.finishCommand stuck
    · exact hg

/-- The data lines without the command that only kept them busy. -/
theorem Good.dropDataCmd (hg : Good reqs issued s) (hd : s.data = none) :
    Lines reqs { s with dataCmd := none } ∧
      Accounted reqs issued { s with dataCmd := none } (owners s) := by
  refine ⟨⟨?_, ?_, ?_, hg.cmd_data, ?_, ?_, hg.undone, hg.early⟩, ?_⟩
  · exact fun m h => nomatch hd.symm.trans h
  · exact fun _ h => nomatch h
  · exact fun _ h => nomatch h
  · exact fun _ _ _ h => nomatch h
  · exact fun e he => hg.member e (he.imp id fun h => nomatch h)
  · refine hg.accounted.congr (fun a h => ?_) rfl rfl (fun _ => id) hg.accounted.cap rfl rfl
    obtain h | ⟨_, h, -⟩ | h := mem_owners.mp h
    · exact mem_owners.mpr (.inl h)
    · exact nomatch h
    · exact mem_owners.mpr (.inr (.inr h))

/-- The command that kept the data lines busy is done. -/
theorem Good.finishBusy (hg : Good reqs issued s) (hd : s.data = none) (hc : s.dataCmd = some c) :
    Good reqs issued (sdhciFinishMrq reqs cfg { s with dataCmd := none } c.mrq) := by
  obtain ⟨hl, ha⟩ := hg.dropDataCmd hd
  refine good_sdhciFinishMrq (hl.clearMrq _) ha (mem_owners.mpr (.inr (.inl ⟨c, hc, rfl⟩)))
    fun a h => ?_
  obtain h | ⟨e, he, rfl⟩ | h := mem_owners.mp h
  · exact Finset.mem_insert_of_mem (mem_owners.mpr (.inl h))
  · obtain rfl := Option.some.inj (hc.symm.trans he)
    exact Finset.mem_insert_self _ _
  · exact Finset.mem_insert_of_mem (mem_owners.mpr (.inr (.inr h)))

theorem data_noteDataError (s : Host) (m : ℕ) (intmask : DataInt) :
    (noteDataError s m intmask).data = s.data := by
  unfold noteDataError
  split <;> rfl

theorem Good.noteDataError (hg : Good reqs issued s) (m : ℕ) (intmask : DataInt) :
    Good reqs issued (noteDataError s m intmask) := by
  unfold Sdhci.noteDataError
  split
  · exact hg.setDataError m _
  · exact hg

/-- The data is there before its command is complete. -/
theorem Good.dataEarly (hg : Good reqs issued s) (hd : s.data = some m)
    (hcmd : s.cmd = s.dataCmd) : Good reqs issued { s with dataEarly := true } := by
  obtain ⟨hdc, -⟩ := hg.data_owner m hd
  refine ⟨⟨hg.data_owner, hg.dataCmd_line, hg.dataCmd_data, hg.cmd_data, hg.same, hg.member,
    hg.undone, fun a ha _ => ?_⟩, ?_⟩
  · obtain rfl := Option.some.inj (hd.symm.trans ha)
    exact hg.undone ⟨m, .cmd⟩ (hcmd.trans hdc)
  · exact hg.accounted.congr (Finset.Subset.refl _) rfl rfl (fun _ => id) hg.accounted.cap rfl rfl

theorem Good.dataIrq (hg : Good reqs issued s) (intmask : DataInt) (stuck : Bool) :
    Good reqs issued (sdhciDataIrq reqs cfg s intmask stuck) := by
  unfold sdhciDataIrq
  split
  next hd =>
    split
    next => exact hg
    next c hc =>
      split_ifs with hbusy htimeout hend hcmd
      · exact (hg.setCmdError c (-etimedout)).finishBusy hd hc
      · -- the command is not complete
        obtain ⟨hl, ha⟩ := hg.dropDataCmd hd
        have howners : owners { s with dataCmd := none } = owners s := by
          refine Finset.Subset.antisymm ha.owners_le fun a h => ?_
          obtain h | ⟨e, he, rfl⟩ | h := mem_owners.mp h
          · exact mem_owners.mpr (.inl h)
          · obtain rfl := Option.some.inj (hc.symm.trans he)
            exact mem_owners.mpr (.inl ⟨c, hcmd, rfl⟩)
          · exact mem_owners.mpr (.inr (.inr h))
        exact ⟨hl, howners ▸ ha⟩
      · exact hg.finishBusy hd hc
      · exact hg
      · exact hg
  next m hd =>
    have hg' := hg.noteDataError m intmask
    have hd' := (data_noteDataError s m intmask).trans hd
    dsimp only
    split_ifs with herr hend hcmd
    · exact hg'.finishData hd' stuck
    · exact hg'.dataEarly hd' hcmd
    · exact hg'.finishData hd' stuck
    · exact hg'

theorem Good.errorOutMrqs (hg : Good reqs issued s) (err : ℤ) :
    Good reqs issued (sdhciErrorOutMrqs reqs cfg s err) :=
  sdhciErrorOutMrqs_keeps reqs cfg err hg fun _ hu c hc =>
    (hu.setCmdError c err).finishMrq (mem_owners.mpr
      (hc.elim (fun h => .inl ⟨c, h, rfl⟩) fun h => .inr (.inl ⟨c, h, rfl⟩)))

theorem Good.cardEvent (hg : Good reqs issued s) (present : Bool) :
    Good reqs issued (sdhciCardEvent reqs cfg s present) := by
  unfold sdhciCardEvent
  split_ifs
  · exact hg.errorOutMrqs _
  · exact hg

theorem Good.timeoutTimer (hg : Good reqs issued s) :
    Good reqs issued (sdhciTimeoutTimer reqs cfg s) := by
  unfold sdhciTimeoutTimer
  cases hc : s.cmd with
  | none => exact hg
  | some c =>
    dsimp only
    split_ifs
    · exact hg
    · exact (hg.setCmdError c _).finishMrq (mem_owners.mpr (.inl ⟨c, hc, rfl⟩))

theorem Good.timeoutDataTimer (hg : Good reqs issued s) (stuck : Bool) :
    Good reqs issued (sdhciTimeoutDataTimer reqs cfg s stuck) := by
  unfold sdhciTimeoutDataTimer
  cases hd : s.data with
  | some m => exact (hg.setDataError m (-etimedout)).finishData hd stuck
  | none =>
    cases hdc : s.dataCmd with
    | some c =>
      exact (hg.setCmdError c _).finishMrq (mem_owners.mpr (.inr (.inl ⟨c, hdc, rfl⟩)))
    | none =>
      cases hc : s.cmd with
      | none => exact hg
      | some c =>
        dsimp only
        split_ifs
        · exact (hg.setCmdError c _).finishMrq (mem_owners.mpr (.inl ⟨c, hc, rfl⟩))
        · exact hg

/-! ### Requests that come and go -/

/-- What the layer above ensures of a new request: it is not one that was issued and not given
back, and there is no such request but one that lets it in. -/
def InTurn (reqs : ℕ → Mrq) (s : Host) (m : ℕ) : Prop :=
  m ∉ held s (owners s) ∧ (held s (owners s)).card ≤ 1 ∧
    ∀ a ∈ held s (owners s), Overlap reqs s a m

instance (m : ℕ) : Decidable (InTurn reqs s m) :=
  inferInstanceAs (Decidable (_ ∧ _ ∧ ∀ a ∈ _, _ ∧ _))

/-- Requests are issued in turn. -/
def IssuesInTurn (reqs : ℕ → Mrq) (s : State) : Action → Prop
  | .request mrq _ _ => InTurn reqs s.host mrq
  | _ => True

instance (s : State) : (a : Action) → Decidable (IssuesInTurn reqs s a)
  | .request mrq _ _ => inferInstanceAs (Decidable (InTurn reqs s.host mrq))
  | .cmdIrq _ _ | .dataIrq _ _ | .timer | .dataTimer _ | .cardEvent _ | .requestDone =>
    isTrue trivial

/-- A new request in the hands of the driver. -/
theorem Good.accept (hg : Good reqs issued s) (hturn : InTurn reqs s m)
    (hcmd : s'.cmd = s.cmd) (hdataCmd : s'.dataCmd = s.dataCmd) (hdata : s'.data = s.data)
    (hearly : s'.dataEarly = s.dataEarly)
    (hdone : s'.commandDone = Function.update s.commandDone m false)
    (hmrqsDone : s'.mrqsDone = s.mrqsDone) (hended : s'.ended = s.ended)
    (hwarned : s'.warned = s.warned) :
    Lines reqs s' ∧ Accounted reqs (issued ++ [m]) s' (insert m (owners s')) := by
  obtain ⟨hnew, hcard, hlets⟩ := hturn
  have howners : owners s' = owners s := by rw [owners, hcmd, hdataCmd, hdata, owners]
  have hnot : m ∉ owners s := fun h => hnew (Multiset.mem_add.mpr (.inr (Finset.mem_val.mpr h)))
  have hheld : held s' (insert m (owners s')) = m ::ₘ held s (owners s) := by
    rw [held, hmrqsDone, howners, Finset.insert_val_of_notMem hnot, Multiset.add_cons, held]
  have hne : ∀ a ∈ held s (owners s), a ≠ m := fun a ha h => hnew (h ▸ ha)
  have hlet : ∀ a ∈ held s (owners s), Overlap reqs s' a m := fun a ha => by
    refine ⟨?_, (hlets a ha).2⟩
    rw [hdone, Function.update_of_ne (hne a ha)]
    exact (hlets a ha).1
  have ha := hg.accounted
  constructor
  · refine hg.toLines.congr hcmd hdataCmd hdata hearly fun a hA => ?_
    rw [hdone]
    exact Function.update_of_ne (fun h : a = m => hnot (h ▸ hA)) _ _
  · refine ⟨Finset.subset_insert _ _, ?_, ?_, ?_, fun a hA b hB hab => ?_, fun a h => ?_,
      fun _ => .inr ⟨m, Finset.mem_insert_self _ _⟩, hwarned.trans ha.unwarned⟩
    · rw [hheld, hended, ← Multiset.coe_add, ha.conserved, Multiset.add_cons,
        ← Multiset.singleton_add, add_comm]
      rfl
    · rw [hheld]
      exact Multiset.nodup_cons.mpr ⟨hnew, ha.nodup⟩
    · rw [hheld, Multiset.card_cons]
      exact Nat.succ_le_succ hcard
    · rw [hheld] at hA hB
      rcases Multiset.mem_cons.mp hA with hA | hA
      · rcases Multiset.mem_cons.mp hB with hB | hB
        · exact absurd (hA.trans hB.symm) hab
        · exact .inr (hA ▸ hlet b hB)
      · rcases Multiset.mem_cons.mp hB with hB | hB
        · exact .inl (hB ▸ hlet a hA)
        · -- at most one request was there before
          obtain ⟨x, hx⟩ := Multiset.card_eq_one.mp
            (Nat.le_antisymm hcard (Multiset.card_pos_iff_exists_mem.mpr ⟨a, hA⟩))
          rw [hx, Multiset.mem_singleton] at hA hB
          exact absurd (hA.trans hB.symm) hab
    · rw [hdone] at h
      by_cases ham : a = m
      · rw [ham, Function.update_self] at h
        exact nomatch h
      · rw [Function.update_of_ne ham] at h
        exact ha.cap a h

/-- The lines that a new request needs are free. -/
theorem Good.sendable_request (hg : Good reqs issued s) (hturn : InTurn reqs s m)
    (hcmd : s'.cmd = s.cmd) (hdataCmd : s'.dataCmd = s.dataCmd) (hdata : s'.data = s.data)
    (hdone : s'.commandDone m = false) {r : Role} (hmember : Member reqs ⟨m, r⟩) :
    Sendable reqs s' ⟨m, r⟩ := by
  obtain ⟨hnew, -, hlets⟩ := hturn
  have hmem : ∀ a ∈ owners s, a ∈ held s (owners s) := fun a h =>
    Multiset.mem_add.mpr (.inr (Finset.mem_val.mpr h))
  have howners : owners s' = owners s := by rw [owners, hcmd, hdataCmd, hdata, owners]
  refine ⟨?_, fun hline => ?_, ?_, hmember, hdone⟩
  · -- the request that lets another one in does not use the command line
    rw [hcmd]
    by_contra hne
    obtain ⟨c, hc⟩ := Option.ne_none_iff_exists'.mp hne
    have hlet := hlets c.mrq (hmem _ (mem_owners.mpr (.inl ⟨c, hc, rfl⟩)))
    exact absurd ((hg.undone c hc).symm.trans hlet.1) (by decide)
  · rw [hdataCmd]
    by_contra hne
    obtain ⟨d, hd⟩ := Option.ne_none_iff_exists'.mp hne
    obtain ⟨hnodata, hshort, -⟩ :=
      (hlets d.mrq (hmem _ (mem_owners.mpr (.inr (.inl ⟨d, hd, rfl⟩))))).2
    have hrole : r = .cmd := by
      by_contra hr
      exact absurd (hnodata.symm.trans (hmember.data hr)) (by decide)
    subst hrole
    simp [sdhciDataLineCmd, hasData, cmdOf, hnodata, hshort] at hline
  · rw [howners]
    exact fun h => hnew (hmem m h)

/-- **A request is issued.** -/
theorem Good.request (hg : Good reqs issued s) (hturn : InTurn reqs s m) (present stuck : Bool) :
    Good reqs (issued ++ [m]) (sdhciRequest reqs cfg s m present stuck) := by
  set s₁ : Host := { s with
    cmdError := fun c => if c.mrq = m then 0 else s.cmdError c
    dataError := Function.update s.dataError m 0
    commandDone := Function.update s.commandDone m false } with hs₁
  obtain ⟨hl, ha⟩ : Lines reqs s₁ ∧ Accounted reqs (issued ++ [m]) s₁ (insert m (owners s₁)) :=
    hg.accept hturn rfl rfl rfl rfl rfl rfl rfl rfl
  have hsend : ∀ r, Member reqs ⟨m, r⟩ → Sendable reqs s₁ ⟨m, r⟩ := by
    intro r hr
    refine hg.sendable_request hturn ?_ ?_ ?_ ?_ hr
    · rfl
    · rfl
    · rfl
    · exact Function.update_self _ _ _
  unfold sdhciRequest
  dsimp only
  split_ifs with habsent hsbc
  · refine good_sdhciFinishMrq (Lines.clearMrq ?_ _) ?_ (Finset.mem_insert_self m (owners s₁))
      (Finset.Subset.refl _)
    · exact hl.congr rfl rfl rfl rfl fun _ _ => rfl
    · exact ha.congr ha.owners_le rfl rfl (fun _ => id) ha.cap rfl rfl
  · have hsome : (reqs m).sbc.isSome := (Bool.and_eq_true_iff.mp hsbc).1
    exact good_sdhciSendCommand hl (hsend .sbc ⟨fun _ => hsome, nofun⟩) ha stuck
  · exact good_sdhciSendCommand hl (hsend .cmd ⟨nofun, nofun⟩) ha stuck

theorem Good.giveBack (hg : Good reqs issued s) {i : Fin 2} (hi : s.mrqsDone i = some m)
    (pendingReset : Bool) :
    Good reqs issued { s with
      pendingReset := pendingReset
      mrqsDone := Function.update s.mrqsDone i none
      ended := s.ended ++ [m] } := by
  have ha := hg.accounted
  set s₁ : Host := { s with
    pendingReset := pendingReset
    mrqsDone := Function.update s.mrqsDone i none
    ended := s.ended ++ [m] } with hs₁
  have hheld : held s (owners s) = m ::ₘ held s₁ (owners s) := by
    rw [held, ← SlotTable.cons_contents_update_none hi, Multiset.cons_add]
    rfl
  have hle : held s₁ (owners s) ≤ held s (owners s) := hheld ▸ Multiset.le_cons_self _ _
  refine ⟨hg.toLines.congr rfl rfl rfl rfl fun _ _ => rfl, ⟨ha.owners_le, ?_,
    Multiset.nodup_of_le hle ha.nodup, (Multiset.card_le_card hle).trans ha.small,
    fun a hA b hB => ha.pair a (Multiset.mem_of_le hle hA) b (Multiset.mem_of_le hle hB), ha.cap,
    fun _ => ha.scheduled ⟨i, by simp [hi]⟩, ha.unwarned⟩⟩
  have hended : (s₁.ended : Multiset ℕ) = ↑s.ended + {m} := (Multiset.coe_add _ _).symm
  rw [ha.conserved, hheld, hended, add_assoc, Multiset.singleton_add]
  rfl

/-- **A request is given back**, or waits until the lines are free for a reset. -/
theorem Good.requestDone (hg : Good reqs issued s) :
    Good reqs issued (sdhciRequestDone reqs cfg s) := by
  have ha := hg.accounted
  unfold sdhciRequestDone
  split
  next hfind =>
    -- no request is done
    refine ⟨hg.toLines.congr rfl rfl rfl rfl fun _ _ => rfl,
      ⟨ha.owners_le, ha.conserved, ha.nodup, ha.small, ha.pair, ha.cap, fun ⟨i, hi⟩ => ?_,
        ha.unwarned⟩⟩
    have hnone := List.find?_eq_none.mp hfind i (List.mem_finRange i)
    exact absurd (by simpa using hnone) hi
  next i hfind =>
    split
    next hi =>
      have hsome := List.find?_some hfind
      rw [hi] at hsome
      exact nomatch hsome
    next mrq hi =>
      have hg' := hg.sdhciDelTimer mrq
      have hi' : (Sdhci.sdhciDelTimer reqs s mrq).mrqsDone i = some mrq := by
        unfold Sdhci.sdhciDelTimer
        split_ifs <;> exact hi
      generalize Sdhci.sdhciDelTimer reqs s mrq = u at hg' hi'
      have ha' := hg'.accounted
      dsimp only
      generalize sdhciNeedsReset reqs cfg u mrq = reset
      by_cases hwait : (reset && (u.cmd.isSome || u.dataCmd.isSome)) = true
      · rw [if_pos hwait]
        refine ⟨hg'.toLines.congr rfl rfl rfl rfl fun _ _ => rfl,
          ⟨ha'.owners_le, ha'.conserved, ha'.nodup, ha'.small, ha'.pair, ha'.cap,
            fun _ => .inr ?_, ha'.unwarned⟩⟩
        simp only [Bool.and_eq_true, Bool.or_eq_true] at hwait
        rcases hwait.2 with h | h
        · obtain ⟨c, hc⟩ := Option.isSome_iff_exists.mp h
          exact ⟨c.mrq, mem_owners.mpr (.inl ⟨c, hc, rfl⟩)⟩
        · obtain ⟨c, hc⟩ := Option.isSome_iff_exists.mp h
          exact ⟨c.mrq, mem_owners.mpr (.inr (.inl ⟨c, hc, rfl⟩))⟩
      · rw [if_neg hwait]
        exact hg'.giveBack hi' _

/-! ### Runs -/

theorem good_init : Good reqs [] Host.init where
  data_owner _ h := nomatch h
  dataCmd_line _ h := nomatch h
  dataCmd_data _ h := nomatch h
  cmd_data _ h := nomatch h
  same _ _ h := nomatch h
  member _ h := by rcases h with h | h <;> exact nomatch h
  undone _ h := nomatch h
  early _ h := nomatch h
  accounted := by
    have hheld : held Host.init (owners Host.init) = 0 := rfl
    refine ⟨Finset.Subset.refl _, rfl, ?_, ?_, ?_, fun _ h => (nomatch h), fun ⟨_, h⟩ => absurd rfl h,
      rfl⟩
    · rw [hheld]
      exact Multiset.nodup_zero
    · rw [hheld]
      exact Nat.zero_le _
    · rw [hheld]
      exact fun a h => absurd h (Multiset.notMem_zero a)

/-- **The step lemma.** Whatever happens keeps the lines and the accounting, if requests are issued
in turn. -/
theorem good_next {t t' : State} {a : Action} (hg : Good reqs t.issued t.host)
    (hturn : IssuesInTurn reqs t a) (h : (requestSystem reqs cfg).next t a = some t') :
    Good reqs t'.issued t'.host := by
  cases a with
  | request mrq present stuck =>
    obtain rfl := Option.some.inj h
    exact hg.request hturn present stuck
  | cmdIrq intmask stuck =>
    obtain rfl := Option.some.inj h
    exact hg.cmdIrq intmask stuck
  | dataIrq intmask stuck =>
    obtain rfl := Option.some.inj h
    exact hg.dataIrq intmask stuck
  | timer =>
    obtain ⟨-, rfl⟩ := Option.ite_some_none_eq_some.mp h
    have hoff : Good reqs t.issued { t.host with timer := false } :=
      hg.congr rfl rfl rfl rfl rfl rfl rfl rfl rfl
    exact hoff.timeoutTimer
  | dataTimer stuck =>
    obtain ⟨-, rfl⟩ := Option.ite_some_none_eq_some.mp h
    have hoff : Good reqs t.issued { t.host with dataTimer := false } :=
      hg.congr rfl rfl rfl rfl rfl rfl rfl rfl rfl
    exact hoff.timeoutDataTimer stuck
  | cardEvent present =>
    obtain rfl := Option.some.inj h
    exact hg.cardEvent present
  | requestDone =>
    obtain rfl := Option.some.inj h
    exact hg.requestDone

theorem good_of_run {as : List Action} {t : State} (hrun : (requestSystem reqs cfg).run as = some t)
    (hturn : (requestSystem reqs cfg).Obeys (IssuesInTurn reqs) (requestSystem reqs cfg).init as) :
    Good reqs t.issued t.host :=
  (requestSystem reqs cfg).invariant_of_obeys (I := fun t => Good reqs t.issued t.host)
    (fun _ _ _ => good_next) good_init hturn hrun

/-- With nothing on the lines, a round of the tasklet gives a done request back. -/
theorem card_contents_sdhciRequestDone (reqs : ℕ → Mrq) (cfg : HostConfig)
    (hfree : owners s = ∅) :
    owners (sdhciRequestDone reqs cfg s) = ∅ ∧
      (SlotTable.contents (sdhciRequestDone reqs cfg s).mrqsDone).card =
        (SlotTable.contents s.mrqsDone).card - 1 := by
  have hlines : s.cmd = none ∧ s.dataCmd = none := by
    refine ⟨Option.eq_none_iff_forall_ne_some.mpr fun c hc => ?_,
      Option.eq_none_iff_forall_ne_some.mpr fun c hc => ?_⟩
    · exact absurd (mem_owners.mpr (.inl ⟨c, hc, rfl⟩)) (hfree ▸ Finset.notMem_empty _)
    · exact absurd (mem_owners.mpr (.inr (.inl ⟨c, hc, rfl⟩))) (hfree ▸ Finset.notMem_empty _)
  unfold sdhciRequestDone
  split
  next hfind =>
    refine ⟨hfree, ?_⟩
    have hzero : SlotTable.contents s.mrqsDone = 0 := SlotTable.contents_eq_zero.mpr fun i => by
      simpa using List.find?_eq_none.mp hfind i (List.mem_finRange i)
    rw [hzero]
    rfl
  next i hfind =>
    split
    next hi =>
      have hsome := List.find?_some hfind
      rw [hi] at hsome
      exact nomatch hsome
    next mrq hi =>
      obtain ⟨hcmd, hdataCmd, hdata, hmrqsDone⟩ : (sdhciDelTimer reqs s mrq).cmd = none ∧
          (sdhciDelTimer reqs s mrq).dataCmd = none ∧
          (sdhciDelTimer reqs s mrq).data = s.data ∧
          (sdhciDelTimer reqs s mrq).mrqsDone = s.mrqsDone := by
        unfold sdhciDelTimer
        split_ifs <;> exact ⟨hlines.1, hlines.2, rfl, rfl⟩
      generalize sdhciDelTimer reqs s mrq = u at hcmd hdataCmd hdata hmrqsDone
      dsimp only
      rw [hcmd, hdataCmd, Option.isSome_none, Bool.or_false, Bool.and_false,
        if_neg Bool.false_ne_true]
      constructor
      · change owners { u with cmd := none, dataCmd := none } = ∅
        rw [← hfree]
        simp only [owners, hlines.1, hlines.2, hdata]
      · rw [hmrqsDone, ← SlotTable.cons_contents_update_none hi, Multiset.card_cons]
        rfl

/-- **Where the requests are.** In every run in which requests are issued in turn, a request that
was issued is given back, or done, or on the lines, as often as it was issued; no more than two are
not given back, and each of them once. No warning is met. If a request is done then the tasklet is
scheduled or another request is on the lines, and once the lines are free two rounds of the tasklet
give everything back. -/
theorem requests_accounted {as : List Action} {t : State}
    (hrun : (requestSystem reqs cfg).run as = some t)
    (hturn : (requestSystem reqs cfg).Obeys (IssuesInTurn reqs) (requestSystem reqs cfg).init as) :
    (t.issued : Multiset ℕ) =
        ↑t.host.ended + (SlotTable.contents t.host.mrqsDone + (owners t.host).val) ∧
      (SlotTable.contents t.host.mrqsDone + (owners t.host).val).Nodup ∧
      (SlotTable.contents t.host.mrqsDone + (owners t.host).val).card ≤ 2 ∧
      t.host.warned = false ∧
      ((∃ i, t.host.mrqsDone i ≠ none) → t.host.scheduled = true ∨ (owners t.host).Nonempty) ∧
      (owners t.host = ∅ →
        (sdhciRequestDone reqs cfg (sdhciRequestDone reqs cfg t.host)).ended.Perm t.issued) := by
  have hg := good_of_run hrun hturn
  have ha := hg.accounted
  refine ⟨ha.conserved, ha.nodup, ha.small, ha.unwarned, ha.scheduled, fun hfree => ?_⟩
  obtain ⟨hfree₁, hcard₁⟩ := card_contents_sdhciRequestDone reqs cfg hfree
  obtain ⟨hfree₂, hcard₂⟩ := card_contents_sdhciRequestDone reqs cfg hfree₁
  have hsmall : (SlotTable.contents t.host.mrqsDone).card ≤ 2 := by
    have h := ha.small
    rw [held, hfree, Finset.empty_val, add_zero] at h
    exact h
  have hzero : SlotTable.contents
      (sdhciRequestDone reqs cfg (sdhciRequestDone reqs cfg t.host)).mrqsDone = 0 :=
    Multiset.card_eq_zero.mp (by omega)
  have hlast : Good reqs t.issued
      (sdhciRequestDone reqs cfg (sdhciRequestDone reqs cfg t.host)) :=
    hg.requestDone.requestDone
  have hconserved := hlast.accounted.conserved
  rw [held, hfree₂, hzero, Finset.empty_val, add_zero, add_zero] at hconserved
  exact (Multiset.coe_eq_coe.mp hconserved).symm

/-! ### A run -/

/-- A write of many blocks, a long transfer that lets other commands in, and a look at the state of
the card. -/
def sampleMrqs : ℕ → Mrq
  | 0 => ⟨some ⟨false, false⟩, ⟨false, false⟩, true, some ⟨false, true⟩, false, by decide, by decide,
      by decide, by decide⟩
  | 1 => ⟨none, ⟨false, false⟩, true, none, true, by decide, by decide, by decide, by decide⟩
  | _ => ⟨none, ⟨false, false⟩, false, none, false, by decide, by decide, by decide, by decide⟩

/-- A controller that has no automatic commands. -/
def sampleConfig : HostConfig := ⟨false, false, false, false, false⟩

def response : CmdInt := ⟨false, false, false, false, true⟩

def dataEnd : DataInt := ⟨false, false, false, false, true⟩

/-- The write fails and is stopped. During the transfer a command runs into its timeout, and waits
for the end of the transfer. -/
def sampleRun : List Action :=
  [.request 0 true false, .cmdIrq response false, .cmdIrq response false,
    .dataIrq ⟨false, false, true, false, false⟩ false, .cmdIrq response false,
    .dataIrq dataEnd false, .requestDone, .request 1 true false, .cmdIrq response false,
    .request 2 true false, .timer, .requestDone, .dataIrq dataEnd false]

/-- The last state of a run. -/
def afterRun (as : List Action) : State :=
  ((requestSystem sampleMrqs sampleConfig).run as).getD (requestSystem sampleMrqs sampleConfig).init

theorem run_eq_afterRun {as : List Action}
    (h : ((requestSystem sampleMrqs sampleConfig).run as).isSome) :
    (requestSystem sampleMrqs sampleConfig).run as = some (afterRun as) := by
  obtain ⟨s, hs⟩ := Option.isSome_iff_exists.mp h
  rw [afterRun, hs]
  rfl

theorem requests_accounted_sampleRun :
    (sdhciRequestDone sampleMrqs sampleConfig
      (sdhciRequestDone sampleMrqs sampleConfig (afterRun sampleRun).host)).ended.Perm
        (afterRun sampleRun).issued :=
  (requests_accounted (run_eq_afterRun (by decide +kernel))
    (by decide +kernel)).2.2.2.2.2 (by decide +kernel)

end LinuxDriver.Sdhci
