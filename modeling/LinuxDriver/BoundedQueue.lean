import LinuxDriver.Lts

/-!
# Bounded queues and their transfer histories

The purpose of a FIFO device, stated without its memory: a queue of at most `cap` values that
accepts as much of a list as fits at its back and gives values away at its front. The history of
a queue records, newest first, what was accepted and given away and when the queue was emptied.

The law of the queue is `queueSystem_law`: since the queue was last emptied, the values given away
followed by the values still queued are the values accepted, in order. Nothing is lost, repeated
or reordered.

## Main definitions

* `BoundedQueue`, `BoundedQueue.push`, `BoundedQueue.pop`.
* `Transfer`, `pushedSince`, `poppedSince`: histories and the streams they determine.
* `queueSystem`: the queue as a transition system.

## Main results

* `queueSystem_law`.
-/

namespace LinuxDriver

variable {α : Type*} {cap : ℕ}

/-- A queue of at most `cap` values, the front first. -/
@[ext] structure BoundedQueue (α : Type*) (cap : ℕ) where
  content : List α
  length_le : content.length ≤ cap

namespace BoundedQueue

/-- The queue with no value. -/
def empty : BoundedQueue α cap := ⟨[], Nat.zero_le _⟩

/-- The part of a list that fits in the free space of a queue. -/
def accepts (q : BoundedQueue α cap) (l : List α) : List α := l.take (cap - q.content.length)

/-- The queue after the fitting part of a list was added at the back. -/
def push (q : BoundedQueue α cap) (l : List α) : BoundedQueue α cap where
  content := q.content ++ q.accepts l
  length_le := by
    have h := q.length_le
    simp only [accepts, List.length_append, List.length_take]
    omega

/-- The queue after at most `n` values were taken at the front. -/
def pop (q : BoundedQueue α cap) (n : ℕ) : BoundedQueue α cap where
  content := q.content.drop n
  length_le := (List.drop_sublist ..).length_le.trans q.length_le

end BoundedQueue

/-- One entry of the history of a queue. -/
inductive Transfer (α : Type*)
  | pushed (l : List α)
  | popped (l : List α)
  | cleared

/-- The values accepted since the queue was last emptied; the newest entry comes first. -/
def pushedSince : List (Transfer α) → List α
  | [] => []
  | .pushed l :: hist => pushedSince hist ++ l
  | .popped _ :: hist => pushedSince hist
  | .cleared :: _ => []

/-- The values given away since the queue was last emptied; the newest entry comes first. -/
def poppedSince : List (Transfer α) → List α
  | [] => []
  | .pushed _ :: hist => poppedSince hist
  | .popped l :: hist => poppedSince hist ++ l
  | .cleared :: _ => []

/-- A queue with its history. -/
structure Ledger (α : Type*) (cap : ℕ) where
  queue : BoundedQueue α cap
  history : List (Transfer α)

/-- The operations on a queue. -/
inductive QueueOp (α : Type*)
  | push (l : List α)
  | pop (n : ℕ)
  | clear

/-- The queue with its history after one operation. -/
def Ledger.apply (s : Ledger α cap) : QueueOp α → Ledger α cap
  | .push l => ⟨s.queue.push l, .pushed (s.queue.accepts l) :: s.history⟩
  | .pop n => ⟨s.queue.pop n, .popped (s.queue.content.take n) :: s.history⟩
  | .clear => ⟨.empty, .cleared :: s.history⟩

/-- The transition system of a queue that is empty at first. -/
def queueSystem (α : Type*) (cap : ℕ) : Lts (Ledger α cap) (QueueOp α) where
  init := ⟨.empty, []⟩
  next s op := some (s.apply op)

/-- The values given away and then the values still queued are the values accepted. -/
def Ledger.Balanced (s : Ledger α cap) : Prop :=
  poppedSince s.history ++ s.queue.content = pushedSince s.history

theorem Ledger.Balanced.apply {s : Ledger α cap} (hs : s.Balanced) (op : QueueOp α) :
    (s.apply op).Balanced := by
  cases op with
  | push l =>
    simp only [Balanced, Ledger.apply, BoundedQueue.push, poppedSince, pushedSince]
    rw [← List.append_assoc, hs]
  | pop n =>
    simp only [Balanced, Ledger.apply, BoundedQueue.pop, poppedSince, pushedSince]
    rw [List.append_assoc, List.take_append_drop, hs]
  | clear => rfl

/-- **The law of a queue.** In every run from the empty queue, the values given away since the
queue was last emptied followed by the values still queued are the values accepted since then. -/
theorem queueSystem_law {s : Ledger α cap} (hs : (queueSystem α cap).Reachable s) :
    s.Balanced := by
  refine (queueSystem α cap).invariant (I := Ledger.Balanced) rfl (fun s op s' hbal h => ?_) hs
  obtain rfl : s.apply op = s' := Option.some.inj h
  exact hbal.apply op

end LinuxDriver
