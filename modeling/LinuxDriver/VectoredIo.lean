import LinuxDriver.Buffer

/-!
# Vectored input and output

A list of segments names the pieces of one buffer that together hold the values of a contiguous
range of another one. Gathering reads the pieces in order, scattering fills them in order.
Transferring the pieces one by one, at offsets that grow by the lengths of the pieces, has the same
effect as one transfer of the whole range (`Buffer.storeEach_eq`, `Buffer.fillEach_eq`).

## Main definitions

* `Segment`, `totalLen`, `Buffer.gather`, `Buffer.scatter`.
* `Buffer.storeEach`, `Buffer.fillEach`: the transfers piece by piece.

## Main results

* `Buffer.storeEach_eq`, `Buffer.fillEach_eq`.
-/

namespace LinuxDriver

/-- A piece of a buffer. -/
structure Segment where
  addr : ℕ
  len : ℕ
  deriving DecidableEq

/-- The number of values in all pieces. -/
def totalLen (segs : List Segment) : ℕ := (segs.map Segment.len).sum

@[simp] theorem totalLen_nil : totalLen [] = 0 := rfl

@[simp] theorem totalLen_cons (seg : Segment) (segs : List Segment) :
    totalLen (seg :: segs) = seg.len + totalLen segs := rfl

namespace Buffer

variable {α : Type*}

/-- The values of the pieces, one piece after the other. -/
def gather (m : Buffer α) (segs : List Segment) : List α :=
  segs.flatMap fun seg => m.load seg.addr seg.len

/-- The buffer after the pieces were filled with the values of a list, one piece after the
other. -/
def scatter (m : Buffer α) : List Segment → List α → Buffer α
  | [], _ => m
  | seg :: segs, l => (m.store seg.addr (l.take seg.len)).scatter segs (l.drop seg.len)

/-- The pieces of `src` stored one by one from offset `off` on. -/
def storeEach (m src : Buffer α) : ℕ → List Segment → Buffer α
  | _, [] => m
  | off, seg :: segs =>
    (m.store off (src.load seg.addr seg.len)).storeEach src (off + seg.len) segs

/-- The pieces filled one by one from offset `off` of `src` on. -/
def fillEach (m src : Buffer α) : ℕ → List Segment → Buffer α
  | _, [] => m
  | off, seg :: segs =>
    (m.store seg.addr (src.load off seg.len)).fillEach src (off + seg.len) segs

@[simp] theorem length_gather (m : Buffer α) (segs : List Segment) :
    (m.gather segs).length = totalLen segs := by
  simp [gather, totalLen]

@[simp] theorem gather_cons (m : Buffer α) (seg : Segment) (segs : List Segment) :
    m.gather (seg :: segs) = m.load seg.addr seg.len ++ m.gather segs := rfl

/-- Storing the pieces one by one is storing their values as one list. -/
theorem storeEach_eq (m src : Buffer α) (off : ℕ) (segs : List Segment) :
    m.storeEach src off segs = m.store off (src.gather segs) := by
  induction segs generalizing m off with
  | nil => simp [storeEach, gather]
  | cons seg segs ih => rw [storeEach, ih, gather_cons, store_append, length_load]

/-- Filling the pieces one by one is scattering the whole range. -/
theorem fillEach_eq (m src : Buffer α) (off : ℕ) (segs : List Segment) :
    m.fillEach src off segs = m.scatter segs (src.load off (totalLen segs)) := by
  induction segs generalizing m off with
  | nil => rfl
  | cons seg segs ih =>
    have hle : seg.len ≤ totalLen (seg :: segs) := Nat.le_add_right ..
    rw [fillEach, ih, scatter, take_load _ hle, drop_load _ hle, totalLen_cons,
      Nat.add_sub_cancel_left]

end Buffer

end LinuxDriver
