/-
# Counting semaphores

Permits are free or held. A waiter that cannot be served keeps its place, so those who come later
wait behind it even when there are permits for them.

A ledger says who holds what. Whoever takes all permits of a semaphore at once is alone with it
from then on until it has given the last one back: nobody else can take all of them meanwhile.
-/

import Mathlib.Tactic

namespace Semaphore

open Multiset Function

section

variable {ω : Type} (cost : ω → Nat)

/-- Serve waiters first come, first served. Returns the permits left, those who go on waiting and
those who were served. -/
def grant : Nat → List ω → Nat × List ω × List ω
  | free, [] => (free, [], [])
  | free, w :: waiting =>
    if cost w ≤ free then
      let (left, rest, served) := grant (free - cost w) waiting
      (left, rest, w :: served)
    else (free, w :: waiting, [])

/-- Those who are served are the first in line. -/
theorem grant_split (free : Nat) (waiting : List ω) :
    waiting = (grant cost free waiting).2.2 ++ (grant cost free waiting).2.1 := by
  induction waiting generalizing free with
  | nil => rfl
  | cons w waiting ih =>
    unfold grant
    split_ifs
    · exact congrArg (w :: ·) (ih _)
    · rfl

/-- The first who goes on waiting needs more than is left. -/
theorem grant_stuck (free : Nat) (waiting : List ω) {w : ω} {rest : List ω}
    (h : (grant cost free waiting).2.1 = w :: rest) : (grant cost free waiting).1 < cost w := by
  induction waiting generalizing free with
  | nil => cases h
  | cons v waiting ih =>
    unfold grant at h ⊢
    split_ifs at h ⊢ with hle
    · exact ih _ h
    · obtain ⟨rfl, -⟩ := List.cons.inj h
      exact Nat.not_le.mp hle

end

variable {κ H : Type}

/-- All permits are free or held, and of those who took all permits of a semaphore at once at most
one still holds any. -/
structure Balanced (held : κ → H → Nat) (took : κ → H → Bool) (limit free : κ → Nat)
    (holders : Multiset H) : Prop where
  total : ∀ k, free k + (holders.map (held k)).sum = limit k
  alone : ∀ k, holders.countP (fun h => took k h) ≤ 1
  alive : ∀ k, ∀ h ∈ holders, took k h = true → 0 < held k h

namespace Balanced

variable {held : κ → H → Nat} {took : κ → H → Bool} {limit free free' : κ → Nat}
  {holders : Multiset H} {h h' : H}

/-- Nobody holds anything yet. -/
theorem new (held : κ → H → Nat) (took : κ → H → Bool) (limit : κ → Nat) :
    Balanced held took limit limit 0 where
  total _ := rfl
  alone _ := Nat.zero_le _
  alive _ _ hmem := absurd hmem (notMem_zero _)

/-- Permits that are free are taken. -/
theorem take (hb : Balanced held took limit free holders) (hfree : ∀ k, free' k + held k h = free k)
    (htook : ∀ k, took k h = true → held k h = limit k ∧ 0 < limit k) :
    Balanced held took limit free' (h ::ₘ holders) where
  total k := by
    have htotal := hb.total k
    have htake := hfree k
    rw [map_cons, sum_cons]
    omega
  alone k := by
    cases hall : took k h with
    | false =>
      rw [countP_cons_of_neg _ (by rw [hall]; exact Bool.false_ne_true)]
      exact hb.alone k
    | true =>
      have hnone : holders.countP (fun h => took k h) = 0 := by
        refine Multiset.countP_eq_zero.mpr fun other hmem hother => ?_
        obtain ⟨rest, rfl⟩ := exists_cons_of_mem hmem
        have hpos := hb.alive k other hmem hother
        have htotal := hb.total k
        have htake := hfree k
        have heq := (htook k hall).1
        rw [map_cons, sum_cons] at htotal
        omega
      rw [countP_cons_of_pos (p := fun h => took k h = true) holders hall, hnone]
  alive k := by
    refine Multiset.forall_mem_cons.mpr ⟨fun hall => ?_, hb.alive k⟩
    obtain ⟨heq, hpos⟩ := htook k hall
    exact heq ▸ hpos

/-- A holder gives everything back. -/
theorem give (hb : Balanced held took limit free (h ::ₘ holders))
    (hfree : ∀ k, free' k = free k + held k h) : Balanced held took limit free' holders where
  total k := by
    have htotal := hb.total k
    rw [map_cons, sum_cons] at htotal
    rw [hfree k, Nat.add_assoc, htotal]
  alone k := (countP_le_of_le _ (le_cons_self _ _)).trans (hb.alone k)
  alive k other hmem := hb.alive k other (mem_cons_of_mem hmem)

/-- A holder changes: it gives some permits back, or becomes another one with the same. -/
theorem change (hb : Balanced held took limit free (h ::ₘ holders))
    (hfree : ∀ k, free' k + held k h' = free k + held k h)
    (htook : ∀ k, took k h' = true → took k h = true ∧ 0 < held k h') :
    Balanced held took limit free' (h' ::ₘ holders) where
  total k := by
    have htotal := hb.total k
    have hsame := hfree k
    rw [map_cons, sum_cons] at htotal ⊢
    omega
  alone k := by
    have halone := hb.alone k
    rw [countP_cons] at halone ⊢
    have hle : (if took k h' = true then 1 else 0) ≤ if took k h = true then 1 else 0 := by
      split_ifs with hnew hold
      · exact le_rfl
      · exact (hold (htook k hnew).1).elim
      · exact Nat.zero_le 1
      · exact le_rfl
    omega
  alive k := by
    refine Multiset.forall_mem_cons.mpr ⟨fun hall => (htook k hall).2, fun other hmem => ?_⟩
    exact hb.alive k other (mem_cons_of_mem hmem)

variable [DecidableEq κ] {ω : Type}

/-- Those who are served become holders. -/
theorem grant (cost : ω → Nat) (k : κ) (holder : ω → H)
    (hheld : ∀ w, held k (holder w) = cost w) (hother : ∀ w, ∀ j ≠ k, held j (holder w) = 0)
    (htook : ∀ w j, took j (holder w) = true → held j (holder w) = limit j ∧ 0 < limit j)
    (waiting : List ω) (hb : Balanced held took limit free holders) :
    Balanced held took limit (update free k (Semaphore.grant cost (free k) waiting).1)
      (((Semaphore.grant cost (free k) waiting).2.2.map holder : Multiset H) + holders) := by
  induction waiting generalizing free holders with
  | nil =>
    unfold Semaphore.grant
    rw [update_eq_self]
    exact (zero_add holders).symm ▸ hb
  | cons w waiting ih =>
    unfold Semaphore.grant
    split_ifs with hle
    · have htake : Balanced held took limit (update free k (free k - cost w))
          (holder w ::ₘ holders) := by
        refine hb.take (fun j => ?_) (htook w)
        by_cases hj : j = k
        · subst hj
          rw [update_self, hheld]
          omega
        · rw [update_of_ne hj, hother w j hj, Nat.add_zero]
      have hrest := ih htake
      rw [update_self, update_idem] at hrest
      rw [add_cons, ← cons_add, cons_coe] at hrest
      exact hrest
    · rw [update_eq_self]
      exact (zero_add holders).symm ▸ hb

/-- Those who are served hold one permit more than before. -/
theorem grantMore (k : κ) (before after : ω → H)
    (hheld : ∀ w, held k (after w) = held k (before w) + 1)
    (hother : ∀ w, ∀ j ≠ k, held j (after w) = held j (before w)) (waiting : List ω)
    (htook : ∀ w ∈ waiting, ∀ j, took j (after w) = true →
      took j (before w) = true ∧ 0 < held j (after w))
    (hb : Balanced held took limit free ((waiting.map before : Multiset H) + holders)) :
    Balanced held took limit
      (update free k (Semaphore.grant (fun _ => 1) (free k) waiting).1)
      (((Semaphore.grant (fun _ => 1) (free k) waiting).2.1.map before : Multiset H) +
        (((Semaphore.grant (fun _ => 1) (free k) waiting).2.2.map after : Multiset H) +
          holders)) := by
  induction waiting generalizing free holders with
  | nil =>
    unfold Semaphore.grant
    rw [update_eq_self]
    exact (zero_add holders).symm ▸ hb
  | cons w waiting ih =>
    unfold Semaphore.grant
    split_ifs with hle
    · obtain ⟨hfirst, hothers⟩ := List.forall_mem_cons.mp htook
      rw [List.map_cons, ← cons_coe, cons_add] at hb
      have hchange : Balanced held took limit (update free k (free k - 1))
          (after w ::ₘ ((waiting.map before : Multiset H) + holders)) := by
        refine hb.change (fun j => ?_) hfirst
        by_cases hj : j = k
        · subst hj
          rw [update_self, hheld]
          omega
        · rw [update_of_ne hj, hother w j hj]
      rw [← add_cons] at hchange
      have hrest := ih hothers hchange
      rw [update_self, update_idem] at hrest
      rw [add_cons, ← cons_add, cons_coe] at hrest
      exact hrest
    · rw [update_eq_self]
      exact (zero_add holders).symm ▸ hb

omit [DecidableEq κ] in
/-- What is held of a semaphore is at most its limit. -/
theorem held_le (hb : Balanced held took limit free holders) (k : κ) :
    (holders.map (held k)).sum ≤ limit k := by
  have htotal := hb.total k
  omega

end Balanced

end Semaphore
