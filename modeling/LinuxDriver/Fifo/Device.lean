import LinuxDriver.BoundedQueue
import LinuxDriver.Kernel
import LinuxDriver.MachineInt

/-!
# The data of a FIFO device

All FIFO drivers of the repository keep their bytes at the front of an array: `len` bytes from
offset `0` on, the oldest first. A read copies bytes from the front to the user and moves the rest
down; a write copies bytes from the user behind the last one. The drivers differ in the size of
the array, in the width of `len` and in the type of the count, which a `FifoLayout` records.

The statements of the read and write paths are functions here (`readCount`, `shiftDown`,
`consume`, `writeCount`, `fill`, `produce`), computed with the C arithmetic. While `len` is at
most the size of the array, they act on the bytes held as the operations of a bounded queue.

## Main definitions

* `FifoLayout`, `FifoDev`, `FifoDev.content`.
* `FifoLayout.readCount`, `FifoLayout.writeCount`: the counts after clamping.
* `FifoDev.shiftDown`, `FifoDev.consume`, `FifoDev.fill`, `FifoDev.scribble`, `FifoDev.produce`,
  `FifoDev.clear`: the statements that change the device.
* `FifoDev.toQueue`: the device as a bounded queue.

## Main results

* `FifoDev.content_consume_shiftDown`, `FifoDev.content_produce_fill`.
* `FifoDev.toQueue_consume_shiftDown`, `FifoDev.toQueue_produce_fill`, `FifoDev.toQueue_clear`:
  the refinement of the queue operations.
-/

namespace LinuxDriver

/-- The size of the array of a FIFO device and the widths of its counters: `len` has `lenBits`
bits, and the count of a call, after its conversion at entry, has `countBits` bits. -/
structure FifoLayout where
  size : ℕ
  lenBits : ℕ
  countBits : ℕ
  size_lt_len : size < 2 ^ lenBits
  size_lt_int : size < 2 ^ 31
  le_countBits : 32 ≤ countBits

/-- The fields of a FIFO device that its read and write paths change. -/
structure FifoDev where
  len : ℕ
  memory : Buffer UInt8

namespace FifoLayout

variable (L : FifoLayout) {len count : ℕ}

/-- `if (count > dev->len) count = dev->len`. -/
def readCount (len count : ℕ) : ℕ :=
  let count := count % 2 ^ L.countBits
  if len < count then len else count

/-- `if (count > SIZE - dev->len) count = SIZE - dev->len`; the difference is unsigned. -/
def writeCount (len count : ℕ) : ℕ :=
  let count := count % 2 ^ L.countBits
  let space := wrapSub 32 L.size len
  if space < count then space else count

theorem size_lt_word : L.size < 2 ^ 32 := L.size_lt_int.trans (by norm_num)

theorem size_lt_count : L.size < 2 ^ L.countBits :=
  L.size_lt_word.trans_le (Nat.pow_le_pow_right (by norm_num) L.le_countBits)

theorem readCount_eq (len count : ℕ) :
    L.readCount len count = min (count % 2 ^ L.countBits) len := by
  simp only [readCount]
  split_ifs <;> omega

theorem writeCount_eq (h : len ≤ L.size) (count : ℕ) :
    L.writeCount len count = min (count % 2 ^ L.countBits) (L.size - len) := by
  simp only [writeCount, wrapSub_of_le L.size_lt_word h]
  split_ifs <;> omega

theorem readCount_le (len count : ℕ) : L.readCount len count ≤ len :=
  (L.readCount_eq len count).trans_le (min_le_right _ _)

theorem writeCount_le (h : len ≤ L.size) (count : ℕ) : L.writeCount len count ≤ L.size - len :=
  (L.writeCount_eq h count).trans_le (min_le_right _ _)

end FifoLayout

namespace FifoDev

variable (L : FifoLayout) (dev : FifoDev) {n : ℕ} {buf : Buffer UInt8}

/-- The bytes held, the oldest first. -/
def content : List UInt8 := dev.memory.load 0 dev.len

/-- `memcpy(dev->mem, dev->mem + n, dev->len - n)`. -/
def shiftDown (n : ℕ) : FifoDev :=
  { dev with memory := dev.memory.memcpy 0 n (wrapSub L.countBits dev.len n) }

/-- `dev->len -= n`. -/
def consume (n : ℕ) : FifoDev := { dev with len := wrapSub L.lenBits dev.len n }

/-- `copy_from_user(dev->mem + dev->len, buf, n)`, when it succeeds. -/
def fill (buf : Buffer UInt8) (n : ℕ) : FifoDev :=
  { dev with memory := dev.memory.store dev.len (buf.load 0 n) }

/-- `copy_from_user(dev->mem + dev->len, buf, n)`, when it fails and leaves `junk` behind. -/
def scribble (junk : List UInt8) (n : ℕ) : FifoDev :=
  { dev with memory := dev.memory.store dev.len (junk.take n) }

/-- `dev->len += n`. -/
def produce (n : ℕ) : FifoDev := { dev with len := wrapAdd L.lenBits dev.len n }

/-- `dev->len = 0; memset(dev->mem, 0, SIZE)`. -/
def clear : FifoDev where
  len := 0
  memory := dev.memory.store 0 (List.replicate L.size 0)

@[simp] theorem length_content : dev.content.length = dev.len := Buffer.length_load ..

@[simp] theorem len_shiftDown (n : ℕ) : (dev.shiftDown L n).len = dev.len := rfl
@[simp] theorem len_fill (buf : Buffer UInt8) (n : ℕ) : (dev.fill buf n).len = dev.len := rfl
@[simp] theorem len_scribble (junk : List UInt8) (n : ℕ) :
    (dev.scribble junk n).len = dev.len := rfl
@[simp] theorem len_clear : (dev.clear L).len = 0 := rfl
@[simp] theorem content_clear : (dev.clear L).content = [] := rfl

variable {dev}

theorem len_consume (hdev : dev.len ≤ L.size) (hn : n ≤ dev.len) :
    (dev.consume L n).len = dev.len - n :=
  wrapSub_of_le (hdev.trans_lt L.size_lt_len) hn

theorem len_produce (hn : dev.len + n ≤ L.size) : (dev.produce L n).len = dev.len + n :=
  wrapAdd_of_lt (hn.trans_lt L.size_lt_len)

theorem take_content (hn : n ≤ dev.len) : dev.content.take n = dev.memory.load 0 n :=
  Buffer.take_load _ hn

/-- The bytes that `memcpy` moves to the front are those behind the first `n`. -/
theorem load_shiftDown (hdev : dev.len ≤ L.size) (hn : n ≤ dev.len) :
    (dev.shiftDown L n).memory.load 0 (dev.len - n) = dev.content.drop n := by
  rw [shiftDown, wrapSub_of_le (hdev.trans_lt L.size_lt_count) hn,
    Buffer.load_memcpy_of_le _ (Nat.zero_le n), content, Buffer.drop_load _ hn, Nat.zero_add]

/-- A copy from the user to the end of the bytes held changes none of them. -/
theorem content_fill (buf : Buffer UInt8) (n : ℕ) : (dev.fill buf n).content = dev.content :=
  Buffer.load_store_of_disjoint _ _ (Or.inl (Nat.zero_add _).le)

/-- A failed copy from the user changes none of the bytes held. -/
theorem content_scribble (junk : List UInt8) (n : ℕ) :
    (dev.scribble junk n).content = dev.content :=
  Buffer.load_store_of_disjoint _ _ (Or.inl (Nat.zero_add _).le)

/-- **The read path.** Moving the rest down and subtracting the count drops the first bytes. -/
theorem content_consume_shiftDown (hdev : dev.len ≤ L.size) (hn : n ≤ dev.len) :
    ((dev.shiftDown L n).consume L n).content = dev.content.drop n := by
  have hlen : ((dev.shiftDown L n).consume L n).len = dev.len - n :=
    len_consume L hdev hn
  rw [content, hlen]
  exact load_shiftDown L hdev hn

/-- **The write path.** Copying behind the last byte and adding the count appends the bytes. -/
theorem content_produce_fill (hn : dev.len + n ≤ L.size) :
    ((dev.fill buf n).produce L n).content = dev.content ++ buf.load 0 n := by
  have hlen : ((dev.fill buf n).produce L n).len = dev.len + n :=
    len_produce L hn
  rw [content, hlen, Buffer.load_add, Nat.zero_add]
  congr 1
  · exact content_fill buf n
  · have hself := Buffer.load_store_self dev.memory dev.len (buf.load 0 n)
    rwa [Buffer.length_load] at hself

/-! ### The device as a bounded queue -/

variable (dev) in
/-- The queue of the bytes held. -/
def toQueue (hdev : dev.len ≤ L.size) : BoundedQueue UInt8 L.size :=
  ⟨dev.content, (length_content dev).trans_le hdev⟩

theorem toQueue_consume_shiftDown (hdev : dev.len ≤ L.size) (hn : n ≤ dev.len)
    (hdev' : ((dev.shiftDown L n).consume L n).len ≤ L.size) :
    ((dev.shiftDown L n).consume L n).toQueue L hdev' = (dev.toQueue L hdev).pop n :=
  BoundedQueue.ext (content_consume_shiftDown L hdev hn)

/-- A write of `n` bytes that fit is accepted whole. -/
theorem accepts_toQueue (hdev : dev.len ≤ L.size) (hn : n ≤ L.size - dev.len) :
    (dev.toQueue L hdev).accepts (buf.load 0 n) = buf.load 0 n := by
  refine List.take_of_length_le ?_
  simpa [toQueue] using hn

theorem toQueue_produce_fill (hdev : dev.len ≤ L.size) (hn : n ≤ L.size - dev.len)
    (hdev' : ((dev.fill buf n).produce L n).len ≤ L.size) :
    ((dev.fill buf n).produce L n).toQueue L hdev' =
      (dev.toQueue L hdev).push (buf.load 0 n) := by
  refine BoundedQueue.ext ?_
  simp only [BoundedQueue.push, accepts_toQueue L hdev hn]
  exact content_produce_fill L (by omega)

theorem toQueue_clear (hdev' : (dev.clear L).len ≤ L.size) :
    (dev.clear L).toQueue L hdev' = .empty :=
  BoundedQueue.ext rfl

end FifoDev

end LinuxDriver
