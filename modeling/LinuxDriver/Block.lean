import LinuxDriver.Buffer

/-!
# Blocks of memory with checked accesses

A block is a buffer that has a size. An access outside of it is a fault, `none`, so a function that
accesses a block is memory safe exactly where it returns something. The functions on C strings
look for a terminator: they are safe if the block has one in the right place.

## Main definitions

* `Block`, `Block.ofList`, `Block.read`, `Block.write`.
* `Block.strlen`, `Block.strcpy`: the functions on strings that end with a zero.
* `Block.Terminated b i n`: a string of `n` values and its terminator, from offset `i` on.

## Main results

* `Terminated.strlen_eq`, `Terminated.strcpy_eq`: the functions on a terminated string.
* `Terminated.store`: a string that was copied is there.
* `exists_terminated`: a range with zeros in it starts with a string.
-/

namespace LinuxDriver

/-- A buffer of `size` values. -/
structure Block (α : Type*) where
  size : ℕ
  mem : Buffer α

namespace Block

variable {α : Type*} {b d : Block α} {i j n : ℕ}

/-- A block that holds the values of a list, and any value `a` where it has none. -/
def ofList (l : List α) (a : α) : Block α := ⟨l.length, fun i => l.getD i a⟩

/-- The value at an offset, if it lies in the block. -/
def read (b : Block α) (i : ℕ) : Option α := if i < b.size then some (b.mem i) else none

/-- The block with the value at an offset replaced, if that lies in the block. -/
def write (b : Block α) (i : ℕ) (a : α) : Option (Block α) :=
  if i < b.size then some { b with mem := Function.update b.mem i a } else none

theorem read_of_lt (h : i < b.size) : b.read i = some (b.mem i) := if_pos h

theorem write_of_lt (h : i < b.size) (a : α) :
    b.write i a = some { b with mem := Function.update b.mem i a } := if_pos h

/-! ### Strings -/

section Strings

variable [Zero α] [DecidableEq α]

/-- The length of the string at an offset. -/
def strlen (b : Block α) (i : ℕ) : Option ℕ :=
  if i < b.size then
    if b.mem i = 0 then some 0 else (strlen b (i + 1)).map (· + 1)
  else none
termination_by b.size - i

/-- Copy the string at offset `j` of `b`, with its terminator, to offset `i` of `d`. -/
def strcpy (d : Block α) (i : ℕ) (b : Block α) (j : ℕ) : Option (Block α) :=
  if j < b.size then
    (d.write i (b.mem j)).bind fun d =>
      if b.mem j = 0 then some d else strcpy d (i + 1) b (j + 1)
  else none
termination_by b.size - j

/-- From offset `i` on, the block has `n` values that are not zero and then a zero. -/
structure Terminated (b : Block α) (i n : ℕ) : Prop where
  ne_zero : ∀ k < n, b.mem (i + k) ≠ 0
  eq_zero : b.mem (i + n) = 0
  lt_size : i + n < b.size

namespace Terminated

omit [DecidableEq α] in
theorem succ (h : Terminated b i (n + 1)) : Terminated b (i + 1) n where
  ne_zero k hk := by
    rw [Nat.add_right_comm]
    exact h.ne_zero (k + 1) (Nat.succ_lt_succ hk)
  eq_zero := by
    rw [Nat.add_right_comm]
    exact h.eq_zero
  lt_size := by
    have := h.lt_size
    omega

theorem strlen_eq (h : Terminated b i n) : b.strlen i = some n := by
  have hlt : i < b.size := (Nat.le_add_right i n).trans_lt h.lt_size
  induction n generalizing i with
  | zero =>
    have hzero : b.mem i = 0 := h.eq_zero
    rw [strlen, if_pos hlt, if_pos hzero]
  | succ n ih =>
    have hnext := h.succ
    have hne : b.mem i ≠ 0 := h.ne_zero 0 (Nat.succ_pos n)
    rw [strlen, if_pos hlt, if_neg hne,
      ih hnext ((Nat.le_add_right _ n).trans_lt hnext.lt_size)]
    rfl

/-- A string that fits in the destination is copied. -/
theorem strcpy_eq (h : Terminated b j n) (hfit : i + n < d.size) :
    d.strcpy i b j = some { d with mem := d.mem.store i (b.mem.load j (n + 1)) } := by
  have hj : j < b.size := (Nat.le_add_right j n).trans_lt h.lt_size
  have hi : i < d.size := (Nat.le_add_right i n).trans_lt hfit
  induction n generalizing d i j with
  | zero =>
    have hstore : d.mem.store i (b.mem.load j 1) = Function.update d.mem i (b.mem j) := by
      rw [Buffer.load_succ, Buffer.load_zero, Buffer.store_cons, Buffer.store_nil]
    have hzero : b.mem j = 0 := h.eq_zero
    rw [strcpy, if_pos hj, write_of_lt hi, Option.bind_some, if_pos hzero, hstore]
  | succ n ih =>
    have hnext := h.succ
    have hne : b.mem j ≠ 0 := h.ne_zero 0 (Nat.succ_pos n)
    have hstore : d.mem.store i (b.mem.load j (n + 1 + 1)) =
        Buffer.store (Function.update d.mem i (b.mem j)) (i + 1) (b.mem.load (j + 1) (n + 1)) := by
      rw [Buffer.load_succ, Buffer.store_cons]
    have hfit' : i + 1 + n < d.size := by omega
    rw [strcpy, if_pos hj, write_of_lt hi, Option.bind_some, if_neg hne, hstore]
    exact ih hnext hfit' ((Nat.le_add_right _ n).trans_lt hnext.lt_size)
      ((Nat.le_add_right _ n).trans_lt hfit')

omit [DecidableEq α] in
/-- A string that was stored is there. -/
theorem store (h : Terminated b j n) (hfit : i + n < d.size) :
    Terminated { d with mem := d.mem.store i (b.mem.load j (n + 1)) } i n where
  ne_zero k hk := by
    have hlt : k < (b.mem.load j (n + 1)).length := by
      rw [Buffer.length_load]
      omega
    dsimp only
    rw [Buffer.store_apply_add _ _ _ _ hlt, Buffer.getElem_load]
    exact h.ne_zero k hk
  eq_zero := by
    have hlt : n < (b.mem.load j (n + 1)).length := by
      rw [Buffer.length_load]
      omega
    dsimp only
    rw [Buffer.store_apply_add _ _ _ _ hlt, Buffer.getElem_load]
    exact h.eq_zero
  lt_size := hfit

end Terminated

/-- In a range with `c + 1` zeros there is a string at its start, and `c` zeros are behind it. -/
theorem exists_terminated {m c : ℕ} (hcount : (b.mem.load i m).count 0 = c + 1)
    (hsize : i + m ≤ b.size) :
    ∃ n < m, b.Terminated i n ∧ (b.mem.load (i + n + 1) (m - (n + 1))).count 0 = c := by
  induction m generalizing i with
  | zero =>
    rw [Buffer.load_zero, List.count_nil] at hcount
    omega
  | succ m ih =>
    rw [Buffer.load_succ] at hcount
    by_cases hzero : b.mem i = 0
    · rw [hzero, List.count_cons_self] at hcount
      refine ⟨0, Nat.succ_pos m, ⟨fun k hk => absurd hk (Nat.not_lt_zero k), hzero, by omega⟩, ?_⟩
      exact Nat.succ.inj hcount
    · rw [List.count_cons_of_ne hzero] at hcount
      obtain ⟨n, hn, hstring, hrest⟩ := ih hcount (by omega)
      refine ⟨n + 1, Nat.succ_lt_succ hn, ⟨fun k hk => ?_, ?_, ?_⟩, ?_⟩
      · cases k with
        | zero => exact hzero
        | succ k =>
          rw [← Nat.add_assoc, Nat.add_right_comm]
          exact hstring.ne_zero k (Nat.lt_of_succ_lt_succ hk)
      · rw [← Nat.add_assoc, Nat.add_right_comm]
        exact hstring.eq_zero
      · have := hstring.lt_size
        omega
      · rw [← Nat.add_assoc, Nat.add_right_comm i, Nat.succ_sub_succ]
        exact hrest

end Strings

end Block

end LinuxDriver
