import Mathlib

/-!
# Re-entrant locks

A re-entrant lock is free, or one owner holds it, some number of times more than once. An owner may
take a lock that it holds already, and nobody else can. The claims on a lock are those takings that
were not given back: a list of owners, which the lock accounts for when they all are its owner and
their number is its depth.

## Main definitions

* `ReentrantLock`, `ReentrantLock.acquire`, `ReentrantLock.release`.
* `ReentrantLock.depthOf`: how often one owner has taken it.
* `ReentrantLock.Accounts`: a lock and the claims on it.

## Main results

* `ReentrantLock.depthOf_acquire_self`, `ReentrantLock.depthOf_release_self`, and those about the
  other owners.
* `ReentrantLock.Accounts.acquire`, `ReentrantLock.Accounts.release`.
* `ReentrantLock.Accounts.single`: mutual exclusion.
-/

namespace LinuxDriver

/-- A lock that is free, or is held by `o` and taken `nested` times more. -/
inductive ReentrantLock (ω : Type*)
  | free
  | held (o : ω) (nested : ℕ)
  deriving DecidableEq

namespace ReentrantLock

variable {ω : Type*}

def owner : ReentrantLock ω → Option ω
  | free => none
  | held o _ => some o

/-- How often the lock is taken. -/
def depth : ReentrantLock ω → ℕ
  | free => 0
  | held _ n => n + 1

/-- Takes the lock if it is free or held by the same owner. -/
def acquire [DecidableEq ω] (o : ω) : ReentrantLock ω → Option (ReentrantLock ω)
  | free => some (held o 0)
  | held o' n => if o' = o then some (held o (n + 1)) else none

/-- Gives the lock back once. -/
def release : ReentrantLock ω → ReentrantLock ω
  | free => free
  | held _ 0 => free
  | held o (n + 1) => held o n

variable {l l' : ReentrantLock ω} {o : ω} {claims : List ω}

theorem depth_eq_zero : l.depth = 0 ↔ l = free := by
  cases l with
  | free => exact iff_of_true rfl rfl
  | held o n => exact iff_of_false (Nat.succ_ne_zero n) nofun

theorem depth_release (l : ReentrantLock ω) : l.release.depth = l.depth - 1 := by
  cases l with
  | free => rfl
  | held o n => cases n <;> rfl

theorem owner_release (l : ReentrantLock ω) :
    l.release.owner = if 1 < l.depth then l.owner else none := by
  cases l with
  | free => rfl
  | held o n =>
    cases n with
    | zero => rfl
    | succ n => rw [if_pos (by rw [depth]; omega)]; rfl

section Acquire

variable [DecidableEq ω]

theorem owner_of_acquire (h : l.acquire o = some l') : l'.owner = some o := by
  cases l with
  | free => cases h; rfl
  | held o' n =>
    rw [acquire, Option.ite_none_right_eq_some] at h
    cases h.2
    rfl

theorem ne_free_of_acquire (h : l.acquire o = some l') : l' ≠ free := by
  rintro rfl
  cases owner_of_acquire h

theorem depth_of_acquire (h : l.acquire o = some l') : l'.depth = l.depth + 1 := by
  cases l with
  | free => cases h; rfl
  | held o' n =>
    rw [acquire, Option.ite_none_right_eq_some] at h
    cases h.2
    rfl

/-- A lock that can be taken is free or held by the same owner. -/
theorem eq_owner_of_acquire (h : l.acquire o = some l') {o' : ω} (ho' : l.owner = some o') :
    o' = o := by
  cases l with
  | free => cases ho'
  | held o'' n =>
    rw [acquire, Option.ite_none_right_eq_some] at h
    cases ho'
    exact h.1

/-- A held lock can be taken by its owner only. -/
theorem acquire_held_ne_none {o' : ω} {n : ℕ} : (held o' n).acquire o ≠ none ↔ o' = o := by
  by_cases ho : o' = o <;> simp [acquire, ho]

end Acquire

/-! ### The takings of one owner -/

section DepthOf

variable [DecidableEq ω]

/-- How often an owner has taken the lock. -/
def depthOf (o : ω) (l : ReentrantLock ω) : ℕ := if l.owner = some o then l.depth else 0

theorem owner_of_depthOf_pos (h : 0 < l.depthOf o) : l.owner = some o := by
  by_contra hne
  rw [depthOf, if_neg hne] at h
  exact lt_irrefl 0 h

theorem depthOf_of_owner (h : l.owner = some o) : l.depthOf o = l.depth := if_pos h

theorem depthOf_acquire_self (h : l.acquire o = some l') : l'.depthOf o = l.depthOf o + 1 := by
  rw [depthOf_of_owner (owner_of_acquire h), depth_of_acquire h]
  cases l with
  | free => rfl
  | held o' n =>
    obtain rfl : o' = o := eq_owner_of_acquire h rfl
    rw [depthOf_of_owner rfl]

theorem depthOf_acquire_other {o' : ω} (ho : o' ≠ o) (h : l.acquire o' = some l') :
    l'.depthOf o = l.depthOf o := by
  rw [depthOf, if_neg, depthOf, if_neg]
  · exact fun howner => ho (eq_owner_of_acquire h howner).symm
  · rw [owner_of_acquire h]
    exact fun heq => ho (Option.some.inj heq)

theorem depthOf_release_self (h : l.owner = some o) : l.release.depthOf o + 1 = l.depthOf o := by
  rw [depthOf_of_owner h]
  cases l with
  | free => cases h
  | held o' n =>
    cases n with
    | zero => rfl
    | succ n => exact congrArg (· + 1) (depthOf_of_owner h)

theorem depthOf_release_other {o' : ω} (ho : o' ≠ o) (h : l.owner = some o') :
    l.release.depthOf o = l.depthOf o := by
  have hne : some o' ≠ some o := fun heq => ho (Option.some.inj heq)
  rw [depthOf, if_neg, depthOf, if_neg]
  · rw [h]
    exact hne
  · rw [owner_release, h]
    split
    · exact hne
    · exact nofun

end DepthOf

/-! ### Claims -/

/-- The claims on the lock are all those of its owner, and as many as it was taken. -/
structure Accounts (l : ReentrantLock ω) (claims : List ω) : Prop where
  owner : ∀ o ∈ claims, l.owner = some o
  length : claims.length = l.depth

theorem accounts_free : (free : ReentrantLock ω).Accounts [] := ⟨nofun, rfl⟩

/-- **Mutual exclusion.** The claims on a lock have one owner. -/
theorem Accounts.single (h : l.Accounts claims) {o o' : ω} (ho : o ∈ claims) (ho' : o' ∈ claims) :
    o = o' :=
  Option.some.inj ((h.owner o ho).symm.trans (h.owner o' ho'))

theorem Accounts.ne_free (h : l.Accounts claims) (ho : o ∈ claims) : l ≠ free := by
  rintro rfl
  cases h.owner o ho

theorem Accounts.perm {claims' : List ω} (h : l.Accounts claims) (hperm : claims.Perm claims') :
    l.Accounts claims' :=
  ⟨fun o ho => h.owner o (hperm.mem_iff.mpr ho), hperm.length_eq ▸ h.length⟩

theorem Accounts.acquire [DecidableEq ω] (h : l.Accounts claims) (hacq : l.acquire o = some l') :
    l'.Accounts (o :: claims) := by
  refine ⟨fun o' ho' => ?_, ?_⟩
  · rw [owner_of_acquire hacq]
    rcases List.mem_cons.mp ho' with rfl | hmem
    · rfl
    · rw [eq_owner_of_acquire hacq (h.owner o' hmem)]
  · rw [List.length_cons, h.length, depth_of_acquire hacq]

theorem Accounts.release (h : l.Accounts (o :: claims)) : l.release.Accounts claims := by
  have howner : l.owner = some o := h.owner o List.mem_cons_self
  have hlength : claims.length + 1 = l.depth := h.length
  refine ⟨fun o' ho' => ?_, by rw [depth_release]; omega⟩
  have hpos : 0 < claims.length := List.length_pos_of_mem ho'
  rw [← h.owner o' (List.mem_cons_of_mem o ho')]
  cases l with
  | free => rfl
  | held o'' n =>
    cases n with
    | zero => rw [depth] at hlength; omega
    | succ n => rfl

end ReentrantLock

end LinuxDriver
