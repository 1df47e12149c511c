import Mathlib

/-!
# Chunks that tile a prefix

A range of units is dealt with in chunks, each of which starts where the one before it ended. The
chunks done so far, the newest first, tile a prefix of the range.

## Main definitions

* `Chunk`, `Chunk.units`.
* `Tiles p cs k`: the chunks `cs` tile the `k` units from `p` on.

## Main results

* `Tiles.units_eq`: the units of the chunks are the prefix.
* `Tiles.disjoint`: no unit is in two chunks.
* `Tiles.length_le`: there are at most as many chunks as units.
* `Tiles.flatMap_reverse`: the chunks have the units in their order.
-/

namespace LinuxDriver

/-- The `size` units from `pos` on. -/
structure Chunk where
  pos : ℕ
  size : ℕ
  deriving DecidableEq

def Chunk.units (c : Chunk) : Set ℕ := Set.Ico c.pos (c.pos + c.size)

/-- The chunks, the newest first, tile the `k` units from `p` on. -/
def Tiles (p : ℕ) : List Chunk → ℕ → Prop
  | [], k => k = 0
  | c :: cs, k => ∃ j, Tiles p cs j ∧ c.pos = p + j ∧ 0 < c.size ∧ k = j + c.size

namespace Tiles

variable {p k : ℕ} {cs : List Chunk}

theorem nil (p : ℕ) : Tiles p [] 0 := rfl

theorem cons (h : Tiles p cs k) {n : ℕ} (hn : 0 < n) : Tiles p (⟨p + k, n⟩ :: cs) (k + n) :=
  ⟨k, h, rfl, hn, rfl⟩

theorem units_eq (h : Tiles p cs k) : {t | ∃ c ∈ cs, t ∈ c.units} = Set.Ico p (p + k) := by
  induction cs generalizing k with
  | nil =>
    obtain rfl : k = 0 := h
    simp
  | cons c cs ih =>
    obtain ⟨j, hcs, hpos, -, rfl⟩ := h
    have hsplit : Set.Ico p (p + (j + c.size)) = Set.Ico p (p + j) ∪ c.units := by
      rw [Chunk.units, hpos, ← add_assoc]
      exact (Set.Ico_union_Ico_eq_Ico (Nat.le_add_right _ _) (Nat.le_add_right _ _)).symm
    rw [hsplit, ← ih hcs]
    ext t
    simp [or_comm]

theorem disjoint (h : Tiles p cs k) : cs.Pairwise fun c d => Disjoint c.units d.units := by
  induction cs generalizing k with
  | nil => exact List.Pairwise.nil
  | cons c cs ih =>
    obtain ⟨j, hcs, hpos, -, rfl⟩ := h
    refine List.pairwise_cons.mpr ⟨fun d hd => Set.disjoint_left.mpr fun t htc htd => ?_, ih hcs⟩
    have ht : t ∈ Set.Ico p (p + j) := hcs.units_eq ▸ ⟨d, hd, htd⟩
    have hge : p + j ≤ t := hpos ▸ htc.1
    exact absurd ht.2 (not_lt.mpr hge)

theorem length_le (h : Tiles p cs k) : cs.length ≤ k := by
  induction cs generalizing k with
  | nil => exact Nat.zero_le k
  | cons c cs ih =>
    obtain ⟨j, hcs, -, hsize, rfl⟩ := h
    have hle : cs.length ≤ j := ih hcs
    rw [List.length_cons]
    omega

/-- A chunk before the oldest one. -/
theorem append_singleton {n : ℕ} (hn : 0 < n) (h : Tiles (p + n) cs k) :
    Tiles p (cs ++ [⟨p, n⟩]) (n + k) := by
  induction cs generalizing k with
  | nil =>
    obtain rfl : k = 0 := h
    exact ⟨0, rfl, rfl, hn, Nat.add_comm n 0⟩
  | cons c cs ih =>
    obtain ⟨j, hcs, hpos, hsize, rfl⟩ := h
    exact ⟨n + j, ih hcs, hpos.trans (Nat.add_assoc ..), hsize, (Nat.add_assoc ..).symm⟩

/-- From the oldest chunk to the newest, the units come in their order. -/
theorem flatMap_reverse (h : Tiles p cs k) :
    cs.reverse.flatMap (fun c => List.range' c.pos c.size) = List.range' p k := by
  induction cs generalizing k with
  | nil =>
    obtain rfl : k = 0 := h
    rfl
  | cons c cs ih =>
    obtain ⟨j, hcs, hpos, -, rfl⟩ := h
    rw [List.reverse_cons, List.flatMap_append, ih hcs, List.flatMap_singleton, hpos,
      List.range'_append_1]

end Tiles

end LinuxDriver
