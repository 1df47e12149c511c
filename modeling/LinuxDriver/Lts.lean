import Mathlib

/-!
# Labelled transition systems with executable steps

A system is given by its initial state and a partial step function: `next s a = some s'` when the
action `a` is enabled in `s` and leads to `s'`, and `next s a = none` when it is not enabled. All
nondeterminism is in the choice of the actions, so a run is a list of actions and can be computed.

Two rules carry every safety proof of the development. `Lts.invariant` is the induction over runs:
a predicate that holds initially and is kept by every step holds in every reachable state.
`Lts.invariant_of_obeys` is the same induction over the runs all of whose steps meet a condition
on the state before the step and the action.

## Main definitions

* `Lts`, `Lts.runFrom`, `Lts.run`, `Lts.Reachable`.
* `Lts.Obeys`: every step of a run meets a condition.
* `Lts.Always`: every state passed by a run has a property.
* `Lts.ArmedSince`: some step of a run armed, and no later one disarmed.
* `Simulation`: a relation matching the steps of one system by runs of another.

## Main results

* `Lts.invariant`, `Lts.invariant_of_obeys`, `Lts.invariant_run`.
* `Lts.always_of_obeys`, `Lts.always_iff_obeys`, `Lts.always_iff_obeys_of_obeys`: the states
  passed by an obeying run.
* `Lts.armedSince_of_flag`, `Lts.flag_of_armedSince`: a raised flag and the step that raised it.
* `Simulation.exists_reachable`, `Simulation.always_exists_reachable`: what a simulation says
  about runs.
-/

namespace LinuxDriver

/-- A labelled transition system whose steps are computed from the state and the action. -/
structure Lts (σ α : Type*) where
  init : σ
  next : σ → α → Option σ

namespace Lts

variable {σ α : Type*} (M : Lts σ α)

/-- The state after the actions of a list, if each of them is enabled in its turn. -/
def runFrom : σ → List α → Option σ
  | s, [] => some s
  | s, a :: as => (M.next s a).bind fun s' => runFrom s' as

/-- The state after a list of actions from the initial state. -/
def run (as : List α) : Option σ := M.runFrom M.init as

/-- A state reached by some run from the initial state. -/
def Reachable (s : σ) : Prop := ∃ as, M.run as = some s

/-- Every step of the run meets the condition `C` on the state before it and its action. -/
def Obeys (C : σ → α → Prop) : σ → List α → Prop
  | _, [] => True
  | s, a :: as => C s a ∧ ∀ s', M.next s a = some s' → Obeys C s' as

instance decidableObeys {C : σ → α → Prop} [∀ s a, Decidable (C s a)] :
    (s : σ) → (as : List α) → Decidable (M.Obeys C s as)
  | _, [] => isTrue trivial
  | s, a :: as =>
    match h : M.next s a with
    | none => decidable_of_iff (C s a) (by simp [Obeys, h])
    | some u =>
      have := decidableObeys (C := C) u as
      decidable_of_iff (C s a ∧ M.Obeys C u as) (by simp [Obeys, h])

/-- Every state passed by the run, its first and its last included, has the property `P`. -/
def Always (P : σ → Prop) : σ → List α → Prop
  | s, [] => P s
  | s, a :: as => P s ∧ ∀ s', M.next s a = some s' → Always P s' as

@[simp] theorem runFrom_nil (s : σ) : M.runFrom s [] = some s := rfl

theorem runFrom_cons_eq_some {s s' : σ} {a : α} {as : List α} :
    M.runFrom s (a :: as) = some s' ↔ ∃ u, M.next s a = some u ∧ M.runFrom u as = some s' :=
  Option.bind_eq_some_iff

theorem runFrom_append (s : σ) (as bs : List α) :
    M.runFrom s (as ++ bs) = (M.runFrom s as).bind fun u => M.runFrom u bs := by
  induction as generalizing s with
  | nil => rfl
  | cons a as ih =>
    simp only [List.cons_append, runFrom]
    cases M.next s a with
    | none => rfl
    | some u => exact ih u

theorem runFrom_append_eq_some {s s' : σ} {as bs : List α} :
    M.runFrom s (as ++ bs) = some s' ↔ ∃ u, M.runFrom s as = some u ∧ M.runFrom u bs = some s' := by
  rw [runFrom_append, Option.bind_eq_some_iff]

variable {M} in
theorem Reachable.next {s s' : σ} {a : α} (hs : M.Reachable s) (h : M.next s a = some s') :
    M.Reachable s' := by
  obtain ⟨as, hrun⟩ := hs
  refine ⟨as ++ [a], M.runFrom_append_eq_some.mpr ⟨s, hrun, ?_⟩⟩
  exact M.runFrom_cons_eq_some.mpr ⟨s', h, rfl⟩

/-- **Invariant rule for obeying runs.** A predicate kept by every step that meets `C` is kept by
every run all of whose steps meet `C`. -/
theorem invariant_of_obeys {C : σ → α → Prop} {I : σ → Prop}
    (hstep : ∀ s a s', I s → C s a → M.next s a = some s' → I s') {s s' : σ} {as : List α}
    (hs : I s) (hC : M.Obeys C s as) (hrun : M.runFrom s as = some s') : I s' := by
  induction as generalizing s with
  | nil =>
    obtain rfl : s = s' := by simpa using hrun
    exact hs
  | cons a as ih =>
    obtain ⟨u, hu, hrest⟩ := M.runFrom_cons_eq_some.mp hrun
    exact ih (hstep s a u hs hC.1 hu) (hC.2 u hu) hrest

theorem obeys_of_forall {C : σ → α → Prop} {as : List α} (h : ∀ a ∈ as, ∀ s, C s a) (s : σ) :
    M.Obeys C s as := by
  induction as generalizing s with
  | nil => trivial
  | cons a as ih =>
    exact ⟨h a List.mem_cons_self s, fun u _ => ih (fun b hb => h b (List.mem_cons_of_mem a hb)) u⟩

variable {M} in
/-- A condition that implies another one where an invariant holds, and keeps the invariant, can be
replaced by it. -/
theorem Obeys.mono {C C' : σ → α → Prop} {I : σ → Prop} {s : σ} {as : List α}
    (hC : M.Obeys C s as) (himp : ∀ s a, I s → C s a → C' s a)
    (hstep : ∀ s a s', I s → C s a → M.next s a = some s' → I s') (hs : I s) :
    M.Obeys C' s as := by
  induction as generalizing s with
  | nil => trivial
  | cons a as ih =>
    exact ⟨himp s a hs hC.1, fun u hu => ih (hC.2 u hu) (hstep s a u hs hC.1 hu)⟩

/-- **Invariant rule.** A predicate that holds initially and is kept by every step holds in every
reachable state. -/
theorem invariant {I : σ → Prop} (hinit : I M.init)
    (hstep : ∀ s a s', I s → M.next s a = some s' → I s') {s : σ} (hs : M.Reachable s) : I s := by
  obtain ⟨as, hrun⟩ := hs
  exact M.invariant_of_obeys (fun s a s' hI _ h => hstep s a s' hI h) hinit
    (M.obeys_of_forall (C := fun _ _ => True) (fun _ _ _ => trivial) M.init) hrun

/-- **Invariant rule with history.** A relation between the actions run so far and the state holds
after every run if it holds initially and is kept by every step. -/
theorem invariant_run {I : List α → σ → Prop} (hinit : I [] M.init)
    (hstep : ∀ as s a s', I as s → M.next s a = some s' → I (as ++ [a]) s') {as : List α} {s : σ}
    (hrun : M.run as = some s) : I as s := by
  induction as using List.reverseRecOn generalizing s with
  | nil =>
    obtain rfl : M.init = s := by simpa [run] using hrun
    exact hinit
  | append_singleton as a ih =>
    obtain ⟨u, hu, hlast⟩ := M.runFrom_append_eq_some.mp hrun
    obtain ⟨v, hv, hnil⟩ := M.runFrom_cons_eq_some.mp hlast
    obtain rfl : v = s := by simpa using hnil
    exact hstep as u a v (ih hu) hv

/-- Some step of the run armed, and no action of the run after it disarms. -/
def ArmedSince (arms : σ → α → Prop) (disarms : α → Prop) (as : List α) : Prop :=
  ∃ pre a post u, as = pre ++ a :: post ∧ M.run pre = some u ∧ arms u a ∧ ∀ b ∈ post, ¬disarms b

/-- **Origin of a flag.** A flag that is initially down, goes up only when a step arms and does not
survive a step that disarms is up only if some step armed and none after it disarmed. -/
theorem armedSince_of_flag (flag : σ → Prop) {arms : σ → α → Prop} {disarms : α → Prop}
    (hinit : ¬flag M.init)
    (hstep : ∀ s a s', M.Reachable s → M.next s a = some s' → flag s' →
      arms s a ∨ flag s ∧ ¬disarms a)
    {as : List α} {s : σ} (hrun : M.run as = some s) (hs : flag s) :
    M.ArmedSince arms disarms as := by
  induction as using List.reverseRecOn generalizing s with
  | nil =>
    obtain rfl : M.init = s := by simpa [run] using hrun
    exact absurd hs hinit
  | append_singleton as a ih =>
    obtain ⟨u, hu, hlast⟩ := M.runFrom_append_eq_some.mp hrun
    obtain ⟨v, hv, hnil⟩ := M.runFrom_cons_eq_some.mp hlast
    obtain rfl : v = s := by simpa using hnil
    rcases hstep u a v ⟨as, hu⟩ hv hs with harm | ⟨hflag, hkeep⟩
    · exact ⟨as, a, [], u, rfl, hu, harm, List.forall_mem_nil _⟩
    · obtain ⟨pre, b, post, w, rfl, hpre, harm, hpost⟩ := ih hu hflag
      refine ⟨pre, b, post ++ [a], w, by simp, hpre, harm, fun c hc => ?_⟩
      rcases List.mem_append.mp hc with hc | hc
      · exact hpost c hc
      · obtain rfl := List.mem_singleton.mp hc
        exact hkeep

/-- A flag that goes up with every step that arms, and stays up over every step that does not
disarm, is up if some step armed and none after it disarmed. -/
theorem flag_of_armedSince (flag : σ → Prop) {arms : σ → α → Prop} {disarms : α → Prop}
    (harm : ∀ s a s', M.Reachable s → M.next s a = some s' → arms s a → flag s')
    (hkeep : ∀ s a s', M.Reachable s → M.next s a = some s' → flag s → ¬disarms a → flag s')
    {as : List α} {s : σ} (hrun : M.run as = some s) (has : M.ArmedSince arms disarms as) :
    flag s := by
  obtain ⟨pre, a, post, u, rfl, hpre, ha, hpost⟩ := has
  obtain ⟨u', hu', hrest⟩ := M.runFrom_append_eq_some.mp hrun
  obtain rfl : u = u' := Option.some.inj (hpre.symm.trans hu')
  obtain ⟨v, hv, hlast⟩ := M.runFrom_cons_eq_some.mp hrest
  have hu : M.Reachable u := ⟨pre, hpre⟩
  have hfirst : M.Reachable v ∧ flag v := ⟨hu.next hv, harm u a v hu hv ha⟩
  exact (M.invariant_of_obeys (C := fun _ b => ¬disarms b) (I := fun s => M.Reachable s ∧ flag s)
    (fun s b s' hs hb hnext => ⟨hs.1.next hnext, hkeep s b s' hs.1 hnext hs.2 hb⟩) hfirst
    (M.obeys_of_forall (fun b hb _ => hpost b hb) v) hlast).2

/-- **Exact conditions, for obeying runs.** If, where the invariant `S` holds, a step that meets `D`
keeps `I` exactly when it meets the condition `C`, then the states passed by a run that obeys `D`
have `I` exactly when the run obeys `C`. The invariant may depend on `I` up to the state before the
step. -/
theorem always_iff_obeys_of_obeys {C D : σ → α → Prop} {S I : σ → Prop}
    (hkeep : ∀ s a s', S s → I s → D s a → M.next s a = some s' → S s')
    (hstep : ∀ s a s', S s → I s → D s a → M.next s a = some s' → (I s' ↔ C s a)) {s s' : σ}
    {as : List α} (hS : S s) (hs : I s) (hD : M.Obeys D s as) (hrun : M.runFrom s as = some s') :
    M.Always I s as ↔ M.Obeys C s as := by
  induction as generalizing s with
  | nil => exact iff_of_true hs trivial
  | cons a as ih =>
    obtain ⟨u, hu, hrest⟩ := M.runFrom_cons_eq_some.mp hrun
    have hfirst : I u ↔ C s a := hstep s a u hS hs hD.1 hu
    have hSu : S u := hkeep s a u hS hs hD.1 hu
    constructor
    · rintro ⟨-, h⟩
      have hI : I u := by
        cases as with
        | nil => exact h u hu
        | cons b bs => exact (h u hu).1
      refine ⟨hfirst.mp hI, fun v hv => ?_⟩
      obtain rfl : u = v := Option.some.inj (hu.symm.trans hv)
      exact (ih hSu hI (hD.2 u hu) hrest).mp (h u hu)
    · rintro ⟨hC, h⟩
      have hI : I u := hfirst.mpr hC
      refine ⟨hs, fun v hv => ?_⟩
      obtain rfl : u = v := Option.some.inj (hu.symm.trans hv)
      exact (ih hSu hI (hD.2 u hu) hrest).mpr (h u hu)

/-- **Exact conditions.** If, where the invariant `S` holds, a step keeps `I` exactly when it meets
the condition, then the states passed by a run have `I` exactly when the run obeys the condition. -/
theorem always_iff_obeys {C : σ → α → Prop} {S I : σ → Prop}
    (hkeep : ∀ s a s', S s → I s → M.next s a = some s' → S s')
    (hstep : ∀ s a s', S s → I s → M.next s a = some s' → (I s' ↔ C s a)) {s s' : σ} {as : List α}
    (hS : S s) (hs : I s) (hrun : M.runFrom s as = some s') :
    M.Always I s as ↔ M.Obeys C s as :=
  M.always_iff_obeys_of_obeys (D := fun _ _ => True) (fun s a s' hS hs _ => hkeep s a s' hS hs)
    (fun s a s' hS hs _ => hstep s a s' hS hs) hS hs
    (M.obeys_of_forall (fun _ _ _ => trivial) s) hrun

/-- The states passed by an obeying run have every property that the invariant implies. -/
theorem always_of_obeys {C : σ → α → Prop} {I P : σ → Prop}
    (hstep : ∀ s a s', I s → C s a → M.next s a = some s' → I s') (hP : ∀ s, I s → P s)
    {s : σ} {as : List α} (hs : I s) (hC : M.Obeys C s as) : M.Always P s as := by
  induction as generalizing s with
  | nil => exact hP s hs
  | cons a as ih => exact ⟨hP s hs, fun u hu => ih (hstep s a u hs hC.1 hu) (hC.2 u hu)⟩

variable {M} in
theorem Always.mono {P Q : σ → Prop} (hPQ : ∀ s, P s → Q s) {s : σ} {as : List α}
    (h : M.Always P s as) : M.Always Q s as := by
  induction as generalizing s with
  | nil => exact hPQ s h
  | cons a as ih => exact ⟨hPQ s h.1, fun u hu => ih (h.2 u hu)⟩

variable {M} in
/-- The last state of a run has what every state passed by it has. -/
theorem Always.last {P : σ → Prop} {s s' : σ} {as : List α} (h : M.Always P s as)
    (hrun : M.runFrom s as = some s') : P s' := by
  induction as generalizing s with
  | nil =>
    obtain rfl : s = s' := by simpa using hrun
    exact h
  | cons a as ih =>
    obtain ⟨u, hu, hrest⟩ := M.runFrom_cons_eq_some.mp hrun
    exact ih (h.2 u hu) hrest

end Lts

/-! ### Simulations -/

/-- A relation under which every step of `M` that meets the condition `C` is matched by a run of
`N`, of any length. -/
structure Simulation {σ τ α β : Type*} (M : Lts σ α) (N : Lts τ β) (C : σ → α → Prop) where
  rel : σ → τ → Prop
  init : rel M.init N.init
  step : ∀ s t a s', rel s t → C s a → M.next s a = some s' →
    ∃ bs t', N.runFrom t bs = some t' ∧ rel s' t'

namespace Simulation

variable {σ τ α β : Type*} {M : Lts σ α} {N : Lts τ β} {C : σ → α → Prop}

/-- A step of `M` keeps the relation with some reachable state of `N`. -/
theorem exists_reachable_next (S : Simulation M N C) {s s' : σ} {a : α}
    (hs : ∃ t, N.Reachable t ∧ S.rel s t) (hC : C s a) (h : M.next s a = some s') :
    ∃ t, N.Reachable t ∧ S.rel s' t := by
  obtain ⟨t, ⟨as, has⟩, hst⟩ := hs
  obtain ⟨bs, t', hbs, hst'⟩ := S.step s t a s' hst hC h
  exact ⟨t', ⟨as ++ bs, N.runFrom_append_eq_some.mpr ⟨t, has, hbs⟩⟩, hst'⟩

theorem exists_reachable_init (S : Simulation M N C) : ∃ t, N.Reachable t ∧ S.rel M.init t :=
  ⟨N.init, ⟨[], rfl⟩, S.init⟩

/-- **Simulated runs.** The last state of an obeying run of `M` is related to a reachable state
of `N`. -/
theorem exists_reachable (S : Simulation M N C) {s : σ} {as : List α}
    (hC : M.Obeys C M.init as) (hrun : M.run as = some s) : ∃ t, N.Reachable t ∧ S.rel s t :=
  M.invariant_of_obeys (I := fun s => ∃ t, N.Reachable t ∧ S.rel s t)
    (fun _ _ _ => S.exists_reachable_next) S.exists_reachable_init hC hrun

/-- Every state passed by an obeying run of `M` is related to a reachable state of `N`. -/
theorem always_exists_reachable (S : Simulation M N C) {as : List α}
    (hC : M.Obeys C M.init as) :
    M.Always (fun s => ∃ t, N.Reachable t ∧ S.rel s t) M.init as :=
  M.always_of_obeys (I := fun s => ∃ t, N.Reachable t ∧ S.rel s t)
    (fun _ _ _ => S.exists_reachable_next) (fun _ => id) S.exists_reachable_init hC

end Simulation

end LinuxDriver
