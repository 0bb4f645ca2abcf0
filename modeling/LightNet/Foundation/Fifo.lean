/-
# LightNet.Foundation.Fifo — the unbounded first-in first-out queue.

The abstract component that a byte buffer, a mailbox or a task list is compared with: its state is
the list of what is queued, oldest element first, and there is nothing else to observe.
-/
import LightNet.Foundation.Run

namespace LightNet.Foundation.Fifo

variable {α : Type*}

/-- One call on a queue of `α`. -/
inductive Op (α : Type*) where
  /-- Put `items` at the back. -/
  | push (items : List α)
  /-- Drop the first `n` elements, or all when there are fewer. -/
  | drop (n : Nat)
  /-- Drop the first `n` elements, or all when there are fewer, and return them. -/
  | take (n : Nat)
  /-- Drop everything. -/
  | clear
  /-- A call that only concerns the representation. -/
  | skip

/-- The queue after a call. -/
def step (queue : List α) : Op α → List α
  | .push items => queue ++ items
  | .drop n | .take n => queue.drop (min n queue.length)
  | .clear => []
  | .skip => queue

/-- What a call returns. -/
def out (queue : List α) : Op α → Option (List α)
  | .take n => some (queue.take (min n queue.length))
  | _ => none

theorem drop_min_length (queue : List α) (n : Nat) :
    queue.drop (min n queue.length) = queue.drop n := by
  rcases Nat.le_total n queue.length with hle | hle
  · rw [Nat.min_eq_left hle]
  · rw [Nat.min_eq_right hle, List.drop_length, List.drop_eq_nil_of_le hle]

theorem take_min_length (queue : List α) (n : Nat) :
    queue.take (min n queue.length) = queue.take n := by
  rw [← List.take_take, List.take_length]

end LightNet.Foundation.Fifo
