/-
# Values with a change notification

A writer replaces a value and then wakes the listeners that exist at that moment. A listener
exists from its creation, whether or not anybody waits on it yet.

A follower that makes its listener before it reads misses nothing. One that reads first misses
every replacement that is over before its listener exists.
-/

import Mathlib.Tactic

namespace Notify

variable {α : Type}

/-- A value, how often listeners were woken, and how many replacements are stored whose wake is
still to come. -/
structure Cell (α : Type) where
  value : α
  wakes : Nat
  pending : Nat

/-- A listener, which remembers how many wakes there were before it. -/
structure Listener where
  wakes : Nat
  deriving DecidableEq

namespace Cell

/-- The first half of a replacement. -/
def store (cell : Cell α) (a : α) : Cell α := { cell with value := a, pending := cell.pending + 1 }

/-- The second half of a replacement. -/
def wake (cell : Cell α) : Cell α :=
  { cell with wakes := cell.wakes + 1, pending := cell.pending - 1 }

/-- A new listener. -/
def notified (cell : Cell α) : Listener := ⟨cell.wakes⟩

end Cell

/-- A listener was woken. -/
def Listener.Woken (l : Listener) (cell : Cell α) : Prop := l.wakes < cell.wakes

instance (l : Listener) (cell : Cell α) : Decidable (l.Woken cell) :=
  inferInstanceAs (Decidable (_ < _))

/-- A follower without a listener is up to date, or a wake is still to come. -/
def Due (cell : Cell α) (fits : α → Prop) : Prop := fits cell.value ∨ 0 < cell.pending

/-- A follower with a listener is up to date, or it is woken, or a wake is still to come. -/
structure Fresh (cell : Cell α) (l : Listener) (fits : α → Prop) : Prop where
  made : l.wakes ≤ cell.wakes
  told : fits cell.value ∨ l.Woken cell ∨ 0 < cell.pending

variable {cell : Cell α} {l : Listener} {fits : α → Prop}

theorem Due.store (cell : Cell α) (a : α) (fits : α → Prop) : Due (cell.store a) fits :=
  .inr (Nat.succ_pos _)

/-- A wake that nobody hears does no harm as long as another is still to come. -/
theorem Due.wake (h : fits cell.value ∨ 1 < cell.pending) : Due cell.wake fits := by
  refine h.imp id fun hmore => ?_
  show 0 < cell.pending - 1
  omega

theorem Due.listen (h : Due cell fits) : Fresh cell cell.notified fits := ⟨le_rfl, h.imp id .inr⟩

theorem Fresh.store (h : Fresh cell l fits) (a : α) : Fresh (cell.store a) l fits :=
  ⟨h.made, .inr (.inr (Nat.succ_pos _))⟩

theorem Fresh.wake (h : Fresh cell l fits) : Fresh cell.wake l fits :=
  ⟨h.made.trans (Nat.le_succ _), .inr (.inl (Nat.lt_succ_of_le h.made))⟩

/-- What is read after a listener was made. -/
theorem Fresh.read (hmade : l.wakes ≤ cell.wakes) (h : fits cell.value) : Fresh cell l fits :=
  ⟨hmade, .inl h⟩

/-- A listener that waits while no replacement is under way has missed none. -/
theorem Fresh.settled (h : Fresh cell l fits) (hwaits : ¬ l.Woken cell)
    (hdone : cell.pending = 0) : fits cell.value := by
  rcases h.told with hfits | hwoken | hpending
  · exact hfits
  · exact absurd hwoken hwaits
  · omega

end Notify
