import Mathlib

/-!
# Tables of slots

A table gives every index a slot that is free or holds one value, `ι → Option α`. What it holds is
a multiset: filling a free slot adds the value to it, emptying a slot takes the value out. A program
that keeps its outstanding work in such a table, and counts it, is accounted for by these rules.

## Main definitions

* `SlotTable.contents`: the values held, with multiplicity.

## Main results

* `SlotTable.contents_update_some`, `SlotTable.cons_contents_update_none`: one slot filled, and
  one emptied.
* `SlotTable.mem_contents`, `SlotTable.contents_eq_zero`, `SlotTable.exists_free`.
-/

namespace LinuxDriver.SlotTable

variable {ι α : Type*} [Fintype ι]

/-- What one slot holds. -/
def held (o : Option α) : Multiset α := o.elim 0 fun a => {a}

@[simp] theorem held_none : held (none : Option α) = 0 := rfl

@[simp] theorem held_some (a : α) : held (some a) = {a} := rfl

theorem mem_held {o : Option α} {a : α} : a ∈ held o ↔ o = some a := by
  cases o with
  | none => simp
  | some b => simp [eq_comm]

/-- What all the slots hold together. -/
def contents (t : ι → Option α) : Multiset α := ∑ i, held (t i)

theorem mem_contents {t : ι → Option α} {a : α} : a ∈ contents t ↔ ∃ i, t i = some a := by
  simp [contents, Multiset.mem_sum, mem_held]

theorem contents_eq_zero {t : ι → Option α} : contents t = 0 ↔ ∀ i, t i = none := by
  rw [Multiset.eq_zero_iff_forall_notMem]
  constructor
  · intro h i
    exact Option.eq_none_iff_forall_ne_some.mpr fun a ha => h a (mem_contents.mpr ⟨i, ha⟩)
  · intro h a ha
    obtain ⟨i, hi⟩ := mem_contents.mp ha
    rw [h i] at hi
    cases hi

theorem card_held (o : Option α) : (held o).card = if o.isSome then 1 else 0 := by
  cases o <;> rfl

/-- A table that holds fewer values than it has slots has a free one. -/
theorem exists_free {t : ι → Option α} (h : (contents t).card < Fintype.card ι) :
    ∃ i, t i = none := by
  by_contra hfull
  have hsome : ∀ i, (t i).isSome := fun i =>
    Option.isSome_iff_ne_none.mpr fun hi => hfull ⟨i, hi⟩
  have hcard : (contents t).card = Fintype.card ι := by
    rw [contents, Multiset.card_sum, Fintype.card, Finset.card_eq_sum_ones]
    exact Finset.sum_congr rfl fun i _ => by rw [card_held, if_pos (hsome i)]
  exact absurd hcard h.ne

variable [DecidableEq ι]

/-- What the table holds is what one slot holds and what the others hold. -/
theorem contents_update (t : ι → Option α) (i : ι) (o : Option α) :
    contents (Function.update t i o) = held o + ∑ j ∈ Finset.univ.erase i, held (t j) := by
  rw [contents, ← Finset.add_sum_erase _ _ (Finset.mem_univ i), Function.update_self]
  congr 1
  refine Finset.sum_congr rfl fun j hj => ?_
  rw [Function.update_of_ne (Finset.ne_of_mem_erase hj)]

theorem contents_eq_add_erase (t : ι → Option α) (i : ι) :
    contents t = held (t i) + ∑ j ∈ Finset.univ.erase i, held (t j) := by
  rw [contents, ← Finset.add_sum_erase _ _ (Finset.mem_univ i)]

/-- A free slot filled. -/
theorem contents_update_some {t : ι → Option α} {i : ι} (hi : t i = none) (a : α) :
    contents (Function.update t i (some a)) = a ::ₘ contents t := by
  rw [contents_update, contents_eq_add_erase t i, hi, held_some, held_none, zero_add,
    Multiset.singleton_add]

/-- A slot emptied. -/
theorem cons_contents_update_none {t : ι → Option α} {i : ι} {a : α} (hi : t i = some a) :
    a ::ₘ contents (Function.update t i none) = contents t := by
  rw [contents_update, contents_eq_add_erase t i, hi, held_some, held_none, zero_add,
    Multiset.singleton_add]

/-- A value replaced by another one. -/
theorem card_contents_update_some {t : ι → Option α} {i : ι} {a : α} (hi : t i = some a) (b : α) :
    (contents (Function.update t i (some b))).card = (contents t).card := by
  rw [contents_update, contents_eq_add_erase t i, hi, held_some, held_some, Multiset.card_add,
    Multiset.card_add, Multiset.card_singleton, Multiset.card_singleton]

end LinuxDriver.SlotTable
