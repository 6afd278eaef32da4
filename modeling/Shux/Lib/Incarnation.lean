/-
# Incarnations

A slot is run by one program after another. Each program is an incarnation with a
number; it claims the slot, publishes statuses stamped with a generation, and
reports its exit. The messages of different incarnations arrive in any order, so
the slot keeps the owner and the last generation it accepted, and drops what is
stale.

The results are about lists of messages in any order: the owner is the greatest
incarnation that claimed, accepted generations increase, and a slot whose program
exited takes no status until it is claimed again.
-/

import Mathlib.Tactic

namespace Incarnation

variable {S : Type}

/-- What is remembered of a slot. -/
structure Slot (S : Type) where
  owner : Option Nat
  generation : Nat
  exited : Bool
  status : S

/-- What may arrive for a slot. -/
inductive Message (S : Type) where
  | claim (incarnation : Nat)
  | publish (generation : Nat) (status : S)
  | exit
  | report (incarnation : Nat) (final : Option (Nat × S))

namespace Slot

/-- An incarnation may take the slot unless a newer one has it. -/
def claimable (slot : Slot S) (incarnation : Nat) : Bool :=
  !(slot.owner.any fun owner => incarnation < owner)

def claim (slot : Slot S) (incarnation : Nat) : Slot S :=
  if slot.claimable incarnation then { slot with owner := some incarnation, exited := false }
  else slot

/-- A status is taken while the program runs, and only a newer one. -/
def accepts (slot : Slot S) (generation : Nat) : Bool :=
  !slot.exited && decide (slot.generation < generation)

def publish (slot : Slot S) (generation : Nat) (status : S) : Slot S :=
  if slot.accepts generation then { slot with generation := generation, status := status } else slot

def exit (slot : Slot S) : Slot S := { slot with exited := true }

/-- Take a last status, if there is one. -/
def publishFinal (slot : Slot S) : Option (Nat × S) → Slot S
  | some (generation, status) => slot.publish generation status
  | none => slot

/-- The exit of the owner, its final status first. Any other incarnation's exit is
stale. -/
def report (slot : Slot S) (incarnation : Nat) (final : Option (Nat × S)) : Slot S :=
  if slot.owner = some incarnation then (slot.publishFinal final).exit else slot

def step (slot : Slot S) : Message S → Slot S
  | .claim incarnation => slot.claim incarnation
  | .publish generation status => slot.publish generation status
  | .exit => slot.exit
  | .report incarnation final => slot.report incarnation final

def run (slot : Slot S) (msgs : List (Message S)) : Slot S := msgs.foldl step slot

/-- The generation a message gets accepted, if it gets one accepted. -/
def accepted (slot : Slot S) : Message S → Option Nat
  | .publish generation _ => if slot.accepts generation then some generation else none
  | .report incarnation (some (generation, _)) =>
    if slot.owner = some incarnation ∧ slot.accepts generation then some generation else none
  | _ => none

/-- The generations accepted along a list of messages. -/
def acceptances (slot : Slot S) : List (Message S) → List Nat
  | [] => []
  | msg :: rest => (slot.accepted msg).toList ++ (slot.step msg).acceptances rest

/-- Whether a message takes the slot over. -/
def takenBy (slot : Slot S) : Message S → Bool
  | .claim incarnation => slot.claimable incarnation
  | _ => false

end Slot

/-- The incarnations that claimed, in order. -/
def claims (msgs : List (Message S)) : List Nat :=
  msgs.filterMap fun msg =>
    match msg with
    | .claim incarnation => some incarnation
    | _ => none

namespace Slot

variable (slot : Slot S)
variable (msgs : List (Message S))

theorem run_append (msgs msgs' : List (Message S)) :
    slot.run (msgs ++ msgs') = (slot.run msgs).run msgs' := List.foldl_append

theorem acceptances_append (msgs msgs' : List (Message S)) :
    slot.acceptances (msgs ++ msgs') =
      slot.acceptances msgs ++ (slot.run msgs).acceptances msgs' := by
  induction msgs generalizing slot with
  | nil => rfl
  | cons msg rest ih =>
    rw [List.cons_append, acceptances, acceptances, ih, List.append_assoc]
    rfl

@[simp]
theorem publish_owner (generation : Nat) (status : S) :
    (slot.publish generation status).owner = slot.owner := by
  rw [publish]
  split_ifs
  · rfl
  · rfl

@[simp]
theorem report_owner (incarnation : Nat) (final : Option (Nat × S)) :
    (slot.report incarnation final).owner = slot.owner := by
  rw [report]
  split_ifs
  · cases final with
    | none => rfl
    | some publication => exact slot.publish_owner publication.1 publication.2
  · rfl

variable {slot : Slot S}

/-- A stale exit changes nothing. -/
theorem report_of_owner_ne {incarnation : Nat}
    (h : slot.owner ≠ some incarnation) (final : Option (Nat × S)) :
    slot.report incarnation final = slot := if_neg h

theorem claim_owner (incarnation : Nat) :
    (slot.claim incarnation).owner =
      some (slot.owner.elim incarnation fun owner => max owner incarnation) := by
  rw [claim, claimable]
  cases howner : slot.owner with
  | none => rfl
  | some owner =>
    by_cases hlt : incarnation < owner
    · simp [hlt, howner, Nat.max_eq_left hlt.le]
    · simp [hlt, Nat.max_eq_right (not_lt.mp hlt)]

/-- The owner is the greatest of the one before and the incarnations that claimed the slot. -/
theorem owner_run (slot : Slot S) :
    (slot.run msgs).owner = (slot.owner.toList ++ claims msgs).max? := by
  induction msgs generalizing slot with
  | nil =>
    show slot.owner = _
    cases slot.owner <;> rfl
  | cons msg rest ih =>
    show ((slot.step msg).run rest).owner = _
    rw [ih]
    have hsame {owner owner' : Option Nat} (h : owner = owner') :
        (owner.toList ++ claims rest).max? = (owner'.toList ++ claims rest).max? := h ▸ rfl
    cases msg with
    | claim incarnation =>
      show ((slot.claim incarnation).owner.toList ++ claims rest).max? =
        (slot.owner.toList ++ incarnation :: claims rest).max?
      rw [claim_owner]
      cases slot.owner <;> rfl
    | publish generation status => exact hsame (slot.publish_owner generation status)
    | exit => rfl
    | report incarnation final => exact hsame (slot.report_owner incarnation final)

theorem publish_generation (generation : Nat) (status : S) :
    slot.generation ≤ (slot.publish generation status).generation := by
  rw [publish]
  split_ifs with h
  · rw [accepts, Bool.and_eq_true, decide_eq_true_eq] at h
    exact h.2.le
  · exact le_rfl

/-- No message takes the generation back. -/
theorem generation_step (msg : Message S) : slot.generation ≤ (slot.step msg).generation := by
  cases msg with
  | claim incarnation =>
    show slot.generation ≤ (slot.claim incarnation).generation
    rw [claim]
    split_ifs
    · exact le_rfl
    · exact le_rfl
  | publish generation status => exact slot.publish_generation generation status
  | exit => exact le_rfl
  | report incarnation final =>
    show slot.generation ≤ (slot.report incarnation final).generation
    rw [report]
    split_ifs
    · cases final with
      | none => exact le_rfl
      | some publication => exact slot.publish_generation publication.1 publication.2
    · exact le_rfl

/-- An accepted generation is above the one before it, and is remembered. -/
theorem of_accepted {msg : Message S} {generation : Nat} (h : slot.accepted msg = some generation) :
    slot.generation < generation ∧ (slot.step msg).generation = generation := by
  cases msg with
  | claim incarnation => cases h
  | exit => cases h
  | publish g status =>
    rw [accepted] at h
    split_ifs at h with haccepts
    cases h
    refine ⟨?_, ?_⟩
    · rw [accepts, Bool.and_eq_true, decide_eq_true_eq] at haccepts
      exact haccepts.2
    · show (slot.publish generation status).generation = generation
      rw [publish, if_pos haccepts]
  | report incarnation final =>
    cases final with
    | none => cases h
    | some publication =>
      rw [accepted] at h
      split_ifs at h with haccepts
      cases h
      obtain ⟨howner, haccepts⟩ := haccepts
      refine ⟨?_, ?_⟩
      · rw [accepts, Bool.and_eq_true, decide_eq_true_eq] at haccepts
        exact haccepts.2
      · show (slot.report incarnation (some publication)).generation = publication.1
        rw [report, if_pos howner]
        show (slot.publish publication.1 publication.2).generation = publication.1
        rw [publish, if_pos haccepts]

theorem lt_of_mem_acceptances (slot : Slot S) :
    ∀ generation ∈ slot.acceptances msgs, slot.generation < generation := by
  induction msgs generalizing slot with
  | nil => simp [acceptances]
  | cons msg rest ih =>
    intro generation hmem
    rw [acceptances, List.mem_append, Option.mem_toList] at hmem
    rcases hmem with hfirst | hrest
    · exact (of_accepted hfirst).1
    · exact (slot.generation_step msg).trans_lt (ih _ generation hrest)

/-- Accepted generations increase. -/
theorem acceptances_pairwise (slot : Slot S) : (slot.acceptances msgs).Pairwise (· < ·) := by
  induction msgs generalizing slot with
  | nil => exact .nil
  | cons msg rest ih =>
    rw [acceptances]
    refine List.pairwise_append.mpr ⟨?_, ih _, ?_⟩
    · cases slot.accepted msg with
      | none => exact .nil
      | some generation => exact List.pairwise_singleton _ generation
    · intro generation hfirst later hlater
      rw [Option.mem_toList] at hfirst
      rw [← (of_accepted hfirst).2]
      exact lt_of_mem_acceptances rest _ later hlater

theorem publish_of_exited (h : slot.exited = true) (generation : Nat) (status : S) :
    slot.publish generation status = slot := by
  rw [publish, accepts, h]
  rfl

/-- A slot whose program exited keeps its status and stays so, whatever arrives, until
it is taken over. -/
theorem step_of_exited (h : slot.exited = true) {msg : Message S}
    (htaken : slot.takenBy msg = false) : slot.step msg = slot := by
  have hexit : slot.exit = slot := by rw [exit, ← h]
  cases msg with
  | claim incarnation =>
    have hno : slot.claimable incarnation = false := htaken
    show slot.claim incarnation = slot
    rw [claim, hno]
    rfl
  | publish generation status => exact publish_of_exited h generation status
  | exit => exact hexit
  | report incarnation final =>
    show slot.report incarnation final = slot
    rw [report]
    split_ifs
    · cases final with
      | none => exact hexit
      | some publication =>
        show (slot.publish publication.1 publication.2).exit = slot
        rw [publish_of_exited h, hexit]
    · rfl

theorem run_of_exited (h : slot.exited = true) {msgs : List (Message S)}
    (htaken : ∀ msg ∈ msgs, slot.takenBy msg = false) : slot.run msgs = slot := by
  induction msgs with
  | nil => rfl
  | cons msg rest ih =>
    show (slot.step msg).run rest = slot
    rw [step_of_exited h (htaken msg List.mem_cons_self)]
    exact ih fun msg' hmem => htaken msg' (List.mem_cons_of_mem msg hmem)

end Slot
end Incarnation
