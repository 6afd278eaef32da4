/-
# Bounded rings

A ring keeps the newest elements of a log, as many as its capacity, oldest first. A ring that
has followed a log holds a suffix of it.
-/

import Mathlib.Data.List.Basic

namespace Shux

/-- The newest elements of a log. -/
structure Ring (α : Type) where
  buffer : List α
  capacity : Nat
deriving DecidableEq, Repr

namespace Ring

variable {α : Type} {ring : Ring α} {log : List α}

def new (capacity : Nat) : Ring α := ⟨[], capacity⟩

/-- Add an element, and drop the oldest one when the ring is full. -/
def push (ring : Ring α) (a : α) : Ring α :=
  { ring with
    buffer :=
      (if ring.capacity ≤ ring.buffer.length then ring.buffer.tail else ring.buffer) ++ [a] }

/-- How many elements of a log a ring has dropped. -/
def dropped (ring : Ring α) (log : List α) : Nat := log.length - ring.capacity

/-- The ring holds the end of the log. -/
def Follows (ring : Ring α) (log : List α) : Prop := ring.buffer = log.drop (ring.dropped log)

theorem follows_new (capacity : Nat) : (new capacity : Ring α).Follows [] := List.drop_nil.symm

theorem Follows.length (h : ring.Follows log) :
    ring.buffer.length = min log.length ring.capacity := by
  rw [h, List.length_drop, dropped]
  omega

/-- A push follows the log by one element. -/
theorem Follows.push (h : ring.Follows log) (hcap : 1 ≤ ring.capacity) (a : α) :
    (ring.push a).Follows (log ++ [a]) := by
  have hlen := h.length
  have hlog : (log ++ [a]).length = log.length + 1 := by simp
  unfold Follows dropped Ring.push
  dsimp only
  rw [hlog]
  by_cases hfull : ring.capacity ≤ ring.buffer.length
  · rw [if_pos hfull, h, dropped, List.tail_drop,
      show log.length + 1 - ring.capacity = log.length - ring.capacity + 1 by omega,
      List.drop_append_of_le_length (by omega)]
  · rw [if_neg hfull, h, dropped, show log.length - ring.capacity = 0 by omega,
      show log.length + 1 - ring.capacity = 0 by omega]
    rfl

end Ring

end Shux
