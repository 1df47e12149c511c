import Mathlib

/-!
# Ledgers of resources

A program acquires resources, uses them and releases them, and may follow a `NULL` pointer instead.
Its ledger is the list of these events in their order. What a ledger says about one resource is the
phase that its events lead to: a resource that was used or released while it was not live is
misused for good.

A ledger is sound when nothing was misused and no `NULL` pointer was followed. It is balanced when,
besides, every resource that was acquired has been released.

## Main definitions

* `Op`, `Phase`, `Phase.next`: what may happen to one resource.
* `Event`, `opsOn`, `phaseOf`: ledgers over a type of resources, read for one resource.
* `SoundLedger`, `BalancedLedger`.
* `Event.map`: the ledger of a part, with the names that its resources have in the whole.

## Main results

* `phaseOf_append_map_self`, `phaseOf_append_map_other`: what a renamed part adds to a ledger.
* `opsOn_flatMap_map`: what a family of renamed parts says about a resource of one of them.
-/

namespace LinuxDriver

/-! ### One resource -/

inductive Op
  | acquire
  | use
  | release
  deriving DecidableEq

inductive Phase
  | absent
  | live
  | released
  | misused
  deriving DecidableEq

def Phase.next : Phase → Op → Phase
  | .absent, .acquire => .live
  | .live, .use => .live
  | .live, .release => .released
  | _, _ => .misused

/-- The phase after some operations. -/
def Phase.after (p : Phase) (ops : List Op) : Phase := ops.foldl Phase.next p

@[simp] theorem Phase.after_nil (p : Phase) : p.after [] = p := rfl

theorem Phase.after_append (p : Phase) (ops ops' : List Op) :
    p.after (ops ++ ops') = (p.after ops).after ops' :=
  List.foldl_append

/-! ### Ledgers -/

variable {ρ σ : Type*}

/-- An operation on a resource, or an access through a `NULL` pointer. -/
inductive Event (ρ : Type*)
  | on (op : Op) (r : ρ)
  | nullDeref
  deriving DecidableEq

/-- The operation of an event on a resource, if it is one. -/
def Event.opOn [DecidableEq ρ] (r : ρ) : Event ρ → Option Op
  | .on op r' => if r' = r then some op else none
  | .nullDeref => none

/-- The operations of a ledger on one resource. -/
def opsOn [DecidableEq ρ] (r : ρ) (log : List (Event ρ)) : List Op := log.filterMap (Event.opOn r)

/-- The phase of a resource after a ledger. -/
def phaseOf [DecidableEq ρ] (r : ρ) (log : List (Event ρ)) : Phase :=
  Phase.absent.after (opsOn r log)

/-- Nothing was misused, and no `NULL` pointer was followed. -/
structure SoundLedger [DecidableEq ρ] (log : List (Event ρ)) : Prop where
  deref : .nullDeref ∉ log
  phase : ∀ r, phaseOf r log ≠ .misused

/-- Every resource that was acquired was released once and not used after that, and no `NULL`
pointer was followed. -/
structure BalancedLedger [DecidableEq ρ] (log : List (Event ρ)) : Prop where
  deref : .nullDeref ∉ log
  phase : ∀ r, phaseOf r log = .absent ∨ phaseOf r log = .released

instance [DecidableEq ρ] [Fintype ρ] (log : List (Event ρ)) : Decidable (SoundLedger log) :=
  decidable_of_iff (.nullDeref ∉ log ∧ ∀ r, phaseOf r log ≠ .misused)
    ⟨fun h => ⟨h.1, h.2⟩, fun h => ⟨h.deref, h.phase⟩⟩

instance [DecidableEq ρ] [Fintype ρ] (log : List (Event ρ)) : Decidable (BalancedLedger log) :=
  decidable_of_iff (.nullDeref ∉ log ∧ ∀ r, phaseOf r log = .absent ∨ phaseOf r log = .released)
    ⟨fun h => ⟨h.1, h.2⟩, fun h => ⟨h.deref, h.phase⟩⟩

section Ledger

variable [DecidableEq ρ] [DecidableEq σ] {log : List (Event ρ)}

theorem BalancedLedger.sound (h : BalancedLedger log) : SoundLedger log where
  deref := h.deref
  phase r := by rcases h.phase r with hr | hr <;> rw [hr] <;> decide

theorem BalancedLedger.nil : BalancedLedger ([] : List (Event ρ)) where
  deref := List.not_mem_nil
  phase _ := .inl rfl

theorem opsOn_append (r : ρ) (log log' : List (Event ρ)) :
    opsOn r (log ++ log') = opsOn r log ++ opsOn r log' :=
  List.filterMap_append

theorem phaseOf_append (r : ρ) (log log' : List (Event ρ)) :
    phaseOf r (log ++ log') = (phaseOf r log).after (opsOn r log') := by
  rw [phaseOf, opsOn_append, Phase.after_append, phaseOf]

/-! ### Parts of a system -/

/-- The event with the name that its resource has in the whole. -/
def Event.map (f : ρ → σ) : Event ρ → Event σ
  | .on op r => .on op (f r)
  | .nullDeref => .nullDeref

omit [DecidableEq ρ] [DecidableEq σ] in
@[simp] theorem nullDeref_mem_map (f : ρ → σ) (log : List (Event ρ)) :
    .nullDeref ∈ log.map (Event.map f) ↔ .nullDeref ∈ log := by
  rw [List.mem_map]
  constructor
  · rintro ⟨e, he, heq⟩
    cases e with
    | on op r => cases heq
    | nullDeref => exact he
  · exact fun h => ⟨_, h, rfl⟩

theorem opsOn_map_self {f : ρ → σ} (hf : f.Injective) (r : ρ) (log : List (Event ρ)) :
    opsOn (f r) (log.map (Event.map f)) = opsOn r log := by
  rw [opsOn, List.filterMap_map, opsOn]
  congr 1
  funext e
  cases e with
  | on op r' => simp [Event.map, Event.opOn, hf.eq_iff]
  | nullDeref => rfl

omit [DecidableEq ρ] in
theorem opsOn_map_other {f : ρ → σ} {r : σ} (hr : ∀ r', f r' ≠ r) (log : List (Event ρ)) :
    opsOn r (log.map (Event.map f)) = [] := by
  rw [opsOn, List.filterMap_map, List.filterMap_eq_nil_iff]
  intro e _
  cases e with
  | on op r' => exact if_neg (hr r')
  | nullDeref => rfl

theorem phaseOf_append_map_self {f : ρ → σ} (hf : f.Injective) (r : ρ) (log : List (Event σ))
    (log' : List (Event ρ)) :
    phaseOf (f r) (log ++ log'.map (Event.map f)) = (phaseOf (f r) log).after (opsOn r log') := by
  rw [phaseOf_append, opsOn_map_self hf]

omit [DecidableEq ρ] in
theorem phaseOf_append_map_other {f : ρ → σ} {r : σ} (hr : ∀ r', f r' ≠ r) (log : List (Event σ))
    (log' : List (Event ρ)) :
    phaseOf r (log ++ log'.map (Event.map f)) = phaseOf r log := by
  rw [phaseOf_append, opsOn_map_other hr, Phase.after_nil]

/-- What a ledger of the same operations on each of `n` resources says about one of them. -/
theorem opsOn_flatMap_range {f : ℕ → ρ} (hf : f.Injective) (ops : List Op) (n i : ℕ) :
    opsOn (f i) ((List.range n).flatMap fun j => ops.map fun op => .on op (f j)) =
      if i < n then ops else [] := by
  have hpart : ∀ j, opsOn (f i) (ops.map fun op => .on op (f j)) = if j = i then ops else [] := by
    intro j
    rw [opsOn, List.filterMap_map]
    by_cases hji : j = i
    · simp [Event.opOn, hji]
    · simp [Event.opOn, hf.ne hji, hji]
  induction n with
  | zero => rfl
  | succ n ih =>
    rw [List.range_succ, List.flatMap_append, opsOn_append, ih, List.flatMap_singleton, hpart]
    rcases lt_trichotomy i n with hlt | rfl | hgt
    · rw [if_pos hlt, if_neg (by omega), if_pos (by omega), List.append_nil]
    · rw [if_neg (lt_irrefl i), if_pos rfl, if_pos (Nat.lt_succ_self i), List.nil_append]
    · rw [if_neg (by omega), if_neg (by omega), if_neg (by omega), List.append_nil]

/-- Operations on other resources say nothing about a resource. -/
theorem opsOn_eq_nil {r : ρ} {log : List (Event ρ)} (h : ∀ op, .on op r ∉ log) :
    opsOn r log = [] := by
  rw [opsOn, List.filterMap_eq_nil_iff]
  intro e he
  cases e with
  | on op r' =>
    refine if_neg fun heq => h op ?_
    rwa [← heq]
  | nullDeref => rfl

end Ledger

/-- What the ledgers of the first `n` parts say about a resource of part `i`. -/
theorem opsOn_flatMap_map {κ : Type*} [DecidableEq κ] (f : ℕ → List (Event κ)) (n i : ℕ) (k : κ) :
    opsOn (i, k) ((List.range n).flatMap fun j => (f j).map (Event.map (Prod.mk j))) =
      if i < n then opsOn k (f i) else [] := by
  have hinj : ∀ j : ℕ, (Prod.mk j : κ → ℕ × κ).Injective := fun j => Prod.mk_right_injective j
  induction n with
  | zero => rfl
  | succ n ih =>
    rw [List.range_succ, List.flatMap_append, opsOn_append, ih, List.flatMap_singleton]
    rcases lt_trichotomy i n with hlt | rfl | hgt
    · rw [if_pos hlt, if_pos (by omega), opsOn_map_other fun r' heq => ?_, List.append_nil]
      exact absurd (Prod.mk.inj heq).1 (by omega)
    · rw [if_neg (lt_irrefl i), if_pos (Nat.lt_succ_self i), List.nil_append,
        opsOn_map_self (hinj i)]
    · rw [if_neg (by omega), if_neg (by omega), List.nil_append, opsOn_map_other fun r' heq => ?_]
      exact absurd (Prod.mk.inj heq).1 (by omega)

end LinuxDriver
