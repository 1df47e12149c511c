import Mathlib

/-!
# Byte buffers

A buffer is what a C pointer to bytes gives access to: a function from offsets to values, with no
length of its own. `Buffer.load` reads a range as a list, `Buffer.store` overwrites a range with
the values of a list, and `Buffer.memcpy` copies a range inside one buffer value by value in
ascending order of the offsets, so that a copy to overlapping higher offsets would read values
already overwritten. A copy to lower offsets never does (`Buffer.load_memcpy_of_le`).

## Main definitions

* `Buffer`, `Buffer.load`, `Buffer.store`, `Buffer.memcpy`.
* `Buffer.RangesApart`, `Buffer.MemcpyContract`: what C says about a copy, in whatever order.

## Main results

* `Buffer.load_add`, `Buffer.load_succ`: a range read in two parts.
* `Buffer.store_append`, `Buffer.store_cons`: a list stored in two parts.
* `Buffer.load_store_self`, `Buffer.load_store_of_disjoint`: reading after a store.
* `Buffer.memcpy_apply_of_le`, `Buffer.load_memcpy_of_le`: an ascending copy to lower offsets moves
  the source range, overlapping or not.
* `Buffer.rangesApart_iff`, `Buffer.memcpyContract_memcpy`.
-/

namespace LinuxDriver

/-- The values seen from a pointer, by offset. -/
abbrev Buffer (α : Type*) := ℕ → α

namespace Buffer

variable {α : Type*}

/-- The `n` values from offset `off` on. -/
def load (m : Buffer α) (off n : ℕ) : List α := (List.range n).map fun i => m (off + i)

/-- The buffer with the values from offset `off` on replaced by those of the list `l`. -/
def store (m : Buffer α) (off : ℕ) (l : List α) : Buffer α :=
  fun i => if off ≤ i then l[i - off]?.getD (m i) else m i

/-- `memcpy(m + dst, m + src, n)` copying one value after another in ascending order. -/
def memcpy (m : Buffer α) (dst src : ℕ) : ℕ → Buffer α
  | 0 => m
  | n + 1 => Function.update (memcpy m dst src n) (dst + n) (memcpy m dst src n (src + n))

/-! ### Reading ranges -/

@[simp] theorem length_load (m : Buffer α) (off n : ℕ) : (m.load off n).length = n := by
  simp [load]

theorem getElem_load (m : Buffer α) (off n i : ℕ) (h : i < (m.load off n).length) :
    (m.load off n)[i] = m (off + i) := by
  simp [load]

theorem load_congr {m m' : Buffer α} {off off' n : ℕ}
    (h : ∀ i < n, m (off + i) = m' (off' + i)) : m.load off n = m'.load off' n :=
  List.map_congr_left fun i hi => h i (List.mem_range.mp hi)

/-- A range of `a + b` values is its first `a` values followed by the other `b`. -/
theorem load_add (m : Buffer α) (off a b : ℕ) :
    m.load off (a + b) = m.load off a ++ m.load (off + a) b := by
  simp only [load, List.range_add, List.map_append, List.map_map]
  congr 1
  exact List.map_congr_left fun i _ => congrArg m (Nat.add_assoc off a i).symm

theorem load_zero (m : Buffer α) (off : ℕ) : m.load off 0 = [] := rfl

/-- A range read from its first value on. -/
theorem load_succ (m : Buffer α) (off n : ℕ) :
    m.load off (n + 1) = m off :: m.load (off + 1) n := by
  rw [Nat.add_comm n 1, load_add]
  rfl

theorem take_load (m : Buffer α) {off a n : ℕ} (h : a ≤ n) :
    (m.load off n).take a = m.load off a := by
  obtain ⟨b, rfl⟩ := Nat.exists_eq_add_of_le h
  rw [load_add, List.take_left' (length_load ..)]

theorem drop_load (m : Buffer α) {off a n : ℕ} (h : a ≤ n) :
    (m.load off n).drop a = m.load (off + a) (n - a) := by
  obtain ⟨b, rfl⟩ := Nat.exists_eq_add_of_le h
  rw [load_add, List.drop_left' (length_load ..), Nat.add_sub_cancel_left]

/-! ### Reading after a store -/

theorem store_apply_of_lt (m : Buffer α) {off i : ℕ} (l : List α) (h : i < off) :
    m.store off l i = m i := by
  simp [store, Nat.not_le.mpr h]

theorem store_apply_of_le (m : Buffer α) {off i : ℕ} (l : List α) (h : off + l.length ≤ i) :
    m.store off l i = m i := by
  simp [store, List.getElem?_eq_none (by omega : l.length ≤ i - off)]

theorem store_apply_add (m : Buffer α) (off i : ℕ) (l : List α) (h : i < l.length) :
    m.store off l (off + i) = l[i] := by
  simp [store, List.getElem?_eq_getElem h]

@[simp] theorem store_nil (m : Buffer α) (off : ℕ) : m.store off [] = m := by
  funext i
  simp [store]

/-- Two lists stored one behind the other are stored as one. -/
theorem store_append (m : Buffer α) (off : ℕ) (l l' : List α) :
    m.store off (l ++ l') = (m.store off l).store (off + l.length) l' := by
  funext i
  by_cases hbefore : i < off
  · rw [store_apply_of_lt _ _ hbefore, store_apply_of_lt _ _ (by omega),
      store_apply_of_lt _ _ hbefore]
  · obtain ⟨j, rfl⟩ := Nat.exists_eq_add_of_le (Nat.not_lt.mp hbefore)
    by_cases hj : j < l.length
    · rw [store_apply_add _ _ _ _ (by simp; omega), List.getElem_append_left hj,
        store_apply_of_lt _ _ (by omega), store_apply_add _ _ _ _ hj]
    · by_cases hj' : j < l.length + l'.length
      · obtain ⟨k, rfl⟩ := Nat.exists_eq_add_of_le (Nat.not_lt.mp hj)
        have hk : k < l'.length := by omega
        rw [store_apply_add _ _ _ _ (by simpa using hj'), ← Nat.add_assoc,
          store_apply_add _ _ _ _ hk]
        simp
      · rw [store_apply_of_le _ _ (by simp; omega), store_apply_of_le _ _ (by omega),
          store_apply_of_le _ _ (by omega)]

/-- A list stored from its first value on. -/
theorem store_cons (m : Buffer α) (off : ℕ) (a : α) (l : List α) :
    m.store off (a :: l) = store (Function.update m off a) (off + 1) l := by
  funext i
  rcases lt_trichotomy i off with hlt | rfl | hgt
  · rw [store_apply_of_lt m _ hlt, store_apply_of_lt _ _ (Nat.lt_succ_of_lt hlt),
      Function.update_of_ne hlt.ne]
  · rw [store_apply_of_lt _ _ (Nat.lt_succ_self i), Function.update_self]
    simp [store]
  · have hsub : i - off = i - (off + 1) + 1 := by omega
    simp [store, hgt.le, Nat.succ_le_of_lt hgt, hsub, Function.update_of_ne hgt.ne']

/-- A stored list is read back. -/
theorem load_store_self (m : Buffer α) (off : ℕ) (l : List α) :
    (m.store off l).load off l.length = l := by
  refine List.ext_getElem (length_load ..) fun i _ hi => ?_
  rw [getElem_load, store_apply_add m off i l hi]

/-- The first values of a stored list are read back. -/
theorem load_store_take (m : Buffer α) (off : ℕ) {l : List α} {n : ℕ} (h : n ≤ l.length) :
    (m.store off l).load off n = l.take n := by
  rw [← take_load _ h, load_store_self]

/-- A store changes no range disjoint from the one stored to. -/
theorem load_store_of_disjoint (m : Buffer α) {off off' n : ℕ} (l : List α)
    (h : off' + n ≤ off ∨ off + l.length ≤ off') :
    (m.store off l).load off' n = m.load off' n := by
  refine load_congr fun i hi => ?_
  rcases h with h | h
  · exact store_apply_of_lt m l (by omega)
  · exact store_apply_of_le m l (by omega)

/-! ### Copies in ascending order -/

/-- An ascending copy to lower offsets reads only values that it has not overwritten yet. -/
theorem memcpy_apply_of_le (m : Buffer α) {dst src : ℕ} (h : dst ≤ src) (n i : ℕ) :
    m.memcpy dst src n i = if dst ≤ i ∧ i < dst + n then m (src + (i - dst)) else m i := by
  induction n generalizing i with
  | zero => simp [memcpy]
  | succ n ih =>
    rw [memcpy, Function.update_apply]
    split_ifs with hi hin hin
    · have hsrc : ¬(dst ≤ src + n ∧ src + n < dst + n) := by omega
      rw [ih, if_neg hsrc, hi, Nat.add_sub_cancel_left]
    · omega
    · rw [ih, if_pos (by omega)]
    · rw [ih, if_neg (by omega)]

/-- An ascending copy to lower offsets moves the source range to the destination. -/
theorem load_memcpy_of_le (m : Buffer α) {dst src : ℕ} (h : dst ≤ src) (n : ℕ) :
    (m.memcpy dst src n).load dst n = m.load src n := by
  refine load_congr fun i hi => ?_
  rw [memcpy_apply_of_le m h, if_pos (by omega), Nat.add_sub_cancel_left]

/-! ### The contract of a copy -/

/-- The ranges of `n` values from `dst` and from `src` on do not overlap. -/
def RangesApart (dst src n : ℕ) : Prop :=
  Disjoint (Set.Ico dst (dst + n)) (Set.Ico src (src + n))

/-- What C says about the buffer `m'` after `memcpy(m + dst, m + src, n)`: the destination has the
values of the source if the ranges do not overlap, and anything if they do. -/
structure MemcpyContract (m : Buffer α) (dst src n : ℕ) (m' : Buffer α) : Prop where
  frame : ∀ i, i ∉ Set.Ico dst (dst + n) → m' i = m i
  copied : RangesApart dst src n → m'.load dst n = m.load src n

theorem rangesApart_iff {dst src n : ℕ} :
    RangesApart dst src n ↔ n = 0 ∨ dst + n ≤ src ∨ src + n ≤ dst := by
  rw [RangesApart, Set.Ico_disjoint_Ico]
  omega

/-- The ascending copy to lower offsets is one of those that the contract allows. -/
theorem memcpyContract_memcpy (m : Buffer α) {dst src : ℕ} (h : dst ≤ src) (n : ℕ) :
    MemcpyContract m dst src n (m.memcpy dst src n) where
  frame i hi := by
    rw [memcpy_apply_of_le m h]
    exact if_neg hi
  copied _ := load_memcpy_of_le m h n

end Buffer

end LinuxDriver
