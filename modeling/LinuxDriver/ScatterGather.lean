import LinuxDriver.Buffer

/-!
# Scattering and gathering

A device reads from and writes to a memory by regions, one behind the other: what it reads is
gathered from them, and what it writes is scattered into them. A driver may copy between regions
before or after that.

## Main definitions

* `Region`, `Region.Apart`: a range of addresses, and two ranges with none in common.
* `Region.Cut`: a range cut into ranges that follow each other.
* `Region.sizeFrom`: how many addresses of a range are not below a bound.
* `gather`, `scatter`: what a device reads from regions, and what it writes to them.
* `Copy`, `runCopies`: copies between regions.

## Main results

* `gather_congr`, `scatter_apply_of_notMem`, `runCopies_apply_of_notMem`: the frame rules.
* `gather_scatter`: what is scattered into regions apart from each other is gathered again.
* `Region.Cut.gather`, `Region.Cut.pairwise_apart`: the parts of a range are read as the range, and
  lie apart.
* `count_gather`: the values of a memory that tells apart what is below a bound count the addresses.
-/

namespace LinuxDriver

/-- A range of addresses. -/
structure Region where
  addr : ℕ
  size : ℕ

namespace Region

instance : Membership ℕ Region := ⟨fun r x => r.addr ≤ x ∧ x < r.addr + r.size⟩

theorem mem_iff {r : Region} {x : ℕ} : x ∈ r ↔ r.addr ≤ x ∧ x < r.addr + r.size := Iff.rfl

/-- The ranges have no address in common. -/
def Apart (r s : Region) : Prop := ∀ x ∈ r, x ∉ s

/-- `Cut r rs`: the ranges `rs`, each of which begins where the one before it ends, make up `r`. -/
inductive Cut : Region → List Region → Prop
  | nil (addr : ℕ) : Cut ⟨addr, 0⟩ []
  | cons {addr n k : ℕ} {rs : List Region} (h : Cut ⟨addr + n, k⟩ rs) :
      Cut ⟨addr, n + k⟩ (⟨addr, n⟩ :: rs)

/-- How many addresses of the range are not below `b`. -/
def sizeFrom (b : ℕ) (r : Region) : ℕ := r.addr + r.size - max r.addr b

namespace Cut

variable {r : Region} {rs : List Region}

/-- A range in one part. -/
theorem single (r : Region) : Cut r [r] := .cons (.nil _)

/-- A range in two parts. -/
theorem pair (addr n k : ℕ) : Cut ⟨addr, n + k⟩ [⟨addr, n⟩, ⟨addr + n, k⟩] := .cons (single _)

theorem sum_size (h : Cut r rs) : (rs.map Region.size).sum = r.size := by
  induction h with
  | nil => rfl
  | cons _ ih => rw [List.map_cons, List.sum_cons, ih]

theorem mem (h : Cut r rs) : ∀ s ∈ rs, ∀ x ∈ s, x ∈ r := by
  induction h with
  | nil => exact fun s hs => absurd hs List.not_mem_nil
  | @cons addr n k rs _ ih =>
    refine List.forall_mem_cons.mpr ⟨fun x hx => ?_, fun s hs x hx => ?_⟩
    · rw [mem_iff] at hx ⊢
      dsimp only at hx ⊢
      omega
    · have hx' := ih s hs x hx
      rw [mem_iff] at hx' ⊢
      dsimp only at hx' ⊢
      omega

/-- The parts lie apart. -/
theorem pairwise_apart (h : Cut r rs) : rs.Pairwise Apart := by
  induction h with
  | nil => exact List.Pairwise.nil
  | @cons addr n k rs h ih =>
    refine List.pairwise_cons.mpr ⟨fun s hs x hx hxs => ?_, ih⟩
    have hlo := (h.mem s hs x hxs).1
    have hhi := hx.2
    dsimp only at hlo hhi
    omega

end Cut

end Region

section Device

variable {α : Type*}

/-- The values of the regions, one region behind the other. -/
def gather (m : Buffer α) (rs : List Region) : List α := rs.flatMap fun r => m.load r.addr r.size

/-- The memory with the values of `data`, from `pos` on, in the regions. -/
def scatter (data : Buffer α) : ℕ → List Region → Buffer α → Buffer α
  | _, [], m => m
  | pos, r :: rs, m => scatter data (pos + r.size) rs (m.store r.addr (data.load pos r.size))

@[simp] theorem gather_nil (m : Buffer α) : gather m [] = [] := rfl

@[simp] theorem gather_cons (m : Buffer α) (r : Region) (rs : List Region) :
    gather m (r :: rs) = m.load r.addr r.size ++ gather m rs :=
  List.flatMap_cons

@[simp] theorem gather_append (m : Buffer α) (rs rs' : List Region) :
    gather m (rs ++ rs') = gather m rs ++ gather m rs' :=
  List.flatMap_append

theorem load_region_congr {m m' : Buffer α} {r : Region} (h : ∀ x ∈ r, m x = m' x) :
    m.load r.addr r.size = m'.load r.addr r.size :=
  Buffer.load_congr fun i hi => h (r.addr + i) ⟨by omega, by omega⟩

/-- Memories that agree on the regions are read alike. -/
theorem gather_congr {m m' : Buffer α} {rs : List Region} (h : ∀ r ∈ rs, ∀ x ∈ r, m x = m' x) :
    gather m rs = gather m' rs := by
  rw [gather, gather]
  refine List.flatMap_congr fun r hr => ?_
  exact load_region_congr (h r hr)

/-- The parts of a range are read as the range. -/
theorem Region.Cut.gather {r : Region} {rs : List Region} (h : Region.Cut r rs) (m : Buffer α) :
    gather m rs = m.load r.addr r.size := by
  induction h with
  | nil => rfl
  | cons _ ih => rw [gather_cons, ih, Buffer.load_add]

/-- Counting the values of a memory that has `p` from the address `b` on, and `q` below. -/
theorem count_load [DecidableEq α] {p q : α} (hne : q ≠ p) (b addr n : ℕ) :
    (Buffer.load (fun x => if b ≤ x then p else q) addr n).count p =
      Region.sizeFrom b ⟨addr, n⟩ := by
  induction n generalizing addr with
  | zero => rw [Region.sizeFrom, Buffer.load_zero]; simp
  | succ n ih =>
    rw [Buffer.load_succ, List.count_cons, ih, Region.sizeFrom, Region.sizeFrom]
    dsimp only
    by_cases h : b ≤ addr
    · rw [if_pos h, if_pos (beq_self_eq_true p)]
      omega
    · rw [if_neg h, if_neg (by rwa [beq_iff_eq])]
      omega

theorem count_gather [DecidableEq α] {p q : α} (hne : q ≠ p) (b : ℕ) (rs : List Region) :
    (gather (fun x => if b ≤ x then p else q) rs).count p =
      (rs.map (Region.sizeFrom b)).sum := by
  induction rs with
  | nil => rfl
  | cons r rs ih =>
    rw [gather_cons, List.count_append, count_load hne, ih, List.map_cons, List.sum_cons]

theorem store_apply_of_notMem (m : Buffer α) {r : Region} {l : List α} (hl : l.length = r.size)
    {x : ℕ} (hx : x ∉ r) : m.store r.addr l x = m x := by
  rw [Region.mem_iff] at hx
  by_cases hlt : x < r.addr
  · exact Buffer.store_apply_of_lt m l hlt
  · exact Buffer.store_apply_of_le m l (by omega)

/-- A device changes nothing outside the regions that it writes to. -/
theorem scatter_apply_of_notMem (data : Buffer α) {pos : ℕ} {rs : List Region} {m : Buffer α}
    {x : ℕ} (hx : ∀ r ∈ rs, x ∉ r) : scatter data pos rs m x = m x := by
  induction rs generalizing pos m with
  | nil => rfl
  | cons r rs ih =>
    obtain ⟨hr, hrs⟩ := List.forall_mem_cons.mp hx
    rw [scatter, ih hrs, store_apply_of_notMem m (Buffer.length_load _ _ _) hr]

/-- What is scattered into regions apart from each other is gathered again. -/
theorem gather_scatter (data : Buffer α) {pos : ℕ} {rs : List Region} (m : Buffer α)
    (h : rs.Pairwise Region.Apart) :
    gather (scatter data pos rs m) rs = data.load pos (rs.map Region.size).sum := by
  induction rs generalizing pos m with
  | nil => rfl
  | cons r rs ih =>
    obtain ⟨hr, hrs⟩ := List.pairwise_cons.mp h
    have hhead : (scatter data (pos + r.size) rs
        (m.store r.addr (data.load pos r.size))).load r.addr r.size = data.load pos r.size := by
      have hself := Buffer.load_store_self m r.addr (data.load pos r.size)
      rw [Buffer.length_load] at hself
      rw [← hself]
      refine load_region_congr fun x hx => ?_
      rw [hself]
      exact scatter_apply_of_notMem data fun s hs => hr s hs x hx
    rw [gather_cons, scatter, hhead, ih _ hrs, List.map_cons, List.sum_cons, Buffer.load_add]

end Device

/-! ### Copies -/

/-- `memcpy(dst, src, size)`. -/
structure Copy where
  dst : ℕ
  src : ℕ
  size : ℕ

namespace Copy

/-- The range that is written. -/
def target (c : Copy) : Region := ⟨c.dst, c.size⟩

variable {α : Type*}

def run (m : Buffer α) (c : Copy) : Buffer α := m.store c.dst (m.load c.src c.size)

theorem run_apply_of_notMem (m : Buffer α) {c : Copy} {x : ℕ} (hx : x ∉ c.target) :
    c.run m x = m x :=
  store_apply_of_notMem m (Buffer.length_load _ _ _) hx

/-- A copy of what is there already changes nothing. -/
theorem run_eq_self {m : Buffer α} (c : Copy)
    (h : ∀ i < c.size, m (c.src + i) = m (c.dst + i)) : c.run m = m := by
  funext x
  by_cases hx : x ∈ c.target
  · obtain ⟨i, rfl⟩ := Nat.exists_eq_add_of_le hx.1
    have hi : i < c.size := Nat.lt_of_add_lt_add_left hx.2
    rw [run, Buffer.load_congr h]
    exact (m.store_apply_add _ i _ (by rwa [Buffer.length_load])).trans (Buffer.getElem_load ..)
  · exact c.run_apply_of_notMem m hx

theorem load_run (m : Buffer α) (c : Copy) :
    (c.run m).load c.dst c.size = m.load c.src c.size := by
  have h := Buffer.load_store_self m c.dst (m.load c.src c.size)
  rwa [Buffer.length_load] at h

end Copy

section Copies

variable {α : Type*}

/-- The copies, one after the other. -/
def runCopies (m : Buffer α) (cs : List Copy) : Buffer α := cs.foldl (fun m c => c.run m) m

/-- Copies change nothing outside the ranges that they write to. -/
theorem runCopies_apply_of_notMem {m : Buffer α} {cs : List Copy} {x : ℕ}
    (hx : ∀ c ∈ cs, x ∉ c.target) : runCopies m cs x = m x := by
  induction cs generalizing m with
  | nil => rfl
  | cons c cs ih =>
    obtain ⟨hc, hcs⟩ := List.forall_mem_cons.mp hx
    exact (ih hcs).trans (c.run_apply_of_notMem m hc)

/-- Copies of what is there already change nothing. -/
theorem runCopies_eq_self {m : Buffer α} {cs : List Copy}
    (h : ∀ c ∈ cs, ∀ i < c.size, m (c.src + i) = m (c.dst + i)) : runCopies m cs = m := by
  induction cs with
  | nil => rfl
  | cons c cs ih =>
    obtain ⟨hc, hcs⟩ := List.forall_mem_cons.mp h
    rw [runCopies, List.foldl_cons, c.run_eq_self hc]
    exact ih hcs

end Copies

end LinuxDriver
