/-
# Finding a pattern in a text

The first place, or the last, at which a pattern occurs in a text, and a search that goes through
numbered steps until one of them has an answer.
-/

import Shux.Lib.Chunks

namespace Find

open Chunks List

variable {α β : Type} {pattern text : List α} {n i : Nat}

theorem at_drop : At pattern (text.drop n) i ↔ At pattern text (n + i) := by
  unfold At
  rw [drop_drop]

/-- A pattern occurs in front of some place only as a whole. -/
theorem at_take (hne : pattern ≠ []) :
    At pattern (text.take n) i ↔ At pattern text i ∧ i + pattern.length ≤ n := by
  have hpos := List.length_pos_iff.mpr hne
  unfold At
  rw [drop_take, prefix_take_iff]
  exact and_congr_right fun _ => ⟨fun h => by omega, fun h => by omega⟩

/-- No pattern occurs past the end. -/
theorem lt_of_at (hne : pattern ≠ []) (h : At pattern text i) : i < text.length := by
  have hpos := List.length_pos_iff.mpr hne
  have hle := At.le_length h
  omega

variable [DecidableEq α]

/-- Where a pattern occurs first. -/
def find (pattern text : List α) : Option Nat :=
  (range text.length).find? fun i => pattern.isPrefixOf (text.drop i)

/-- Where it occurs last. -/
def rfind (pattern text : List α) : Option Nat :=
  (range text.length).findRev? fun i => pattern.isPrefixOf (text.drop i)

theorem isPrefixOf_iff : pattern.isPrefixOf (text.drop i) = true ↔ At pattern text i :=
  isPrefixOf_iff_prefix

theorem find_eq_none (hne : pattern ≠ []) (h : find pattern text = none) (i : Nat) :
    ¬ At pattern text i := by
  intro hat
  exact List.find?_eq_none.mp h i (List.mem_range.mpr (lt_of_at hne hat)) (isPrefixOf_iff.mpr hat)

theorem find_eq_some (h : find pattern text = some i) :
    At pattern text i ∧ ∀ j, At pattern text j → i ≤ j := by
  obtain ⟨hat, -, hfirst⟩ := List.find?_range_eq_some.mp h
  refine ⟨isPrefixOf_iff.mp hat, fun j hj => ?_⟩
  by_contra hlt
  have hnot := hfirst j (Nat.not_le.mp hlt)
  rw [isPrefixOf_iff.mpr hj] at hnot
  cases hnot

/-- The last number below a bound that passes a test. -/
theorem findRev_range {p : Nat → Bool} (n : Nat) :
    (∀ i, (range n).findRev? p = some i → i < n ∧ p i = true ∧ ∀ j, i < j → j < n → p j = false) ∧
    ((range n).findRev? p = none → ∀ i < n, p i = false) := by
  induction n with
  | zero => exact ⟨(fun i h => by cases h), fun _ i hi => absurd hi (Nat.not_lt_zero i)⟩
  | succ n ih =>
    have hsplit : (range (n + 1)).findRev? p =
        if p n = true then some n else (range n).findRev? p := by
      rw [findRev?_eq_find?_reverse, findRev?_eq_find?_reverse, range_succ,
        reverse_append, reverse_singleton, singleton_append, List.find?_cons]
      cases p n <;> rfl
    rw [hsplit]
    split_ifs with hn
    · refine ⟨fun i h => ?_, fun h => by cases h⟩
      cases h
      exact ⟨Nat.lt_succ_self n, hn, fun j hlt hle => by omega⟩
    · have hfalse : p n = false := Bool.eq_false_of_not_eq_true hn
      refine ⟨fun i h => ?_, fun h i hi => ?_⟩
      · obtain ⟨hlt, hi, hlast⟩ := ih.1 i h
        refine ⟨by omega, hi, fun j hij hj => ?_⟩
        rcases Nat.lt_succ_iff_lt_or_eq.mp hj with hj | rfl
        · exact hlast j hij hj
        · exact hfalse
      · rcases Nat.lt_succ_iff_lt_or_eq.mp hi with hi | rfl
        · exact ih.2 h i hi
        · exact hfalse

theorem rfind_eq_none (hne : pattern ≠ []) (h : rfind pattern text = none) (i : Nat) :
    ¬ At pattern text i := by
  intro hat
  have hnot := (findRev_range text.length).2 h i (lt_of_at hne hat)
  rw [isPrefixOf_iff.mpr hat] at hnot
  cases hnot

theorem rfind_eq_some (hne : pattern ≠ []) (h : rfind pattern text = some i) :
    At pattern text i ∧ ∀ j, At pattern text j → j ≤ i := by
  obtain ⟨-, hat, hlast⟩ := (findRev_range text.length).1 i h
  refine ⟨isPrefixOf_iff.mp hat, fun j hj => ?_⟩
  by_contra hlt
  have hnot := hlast j (Nat.not_le.mp hlt) (lt_of_at hne hj)
  rw [isPrefixOf_iff.mpr hj] at hnot
  cases hnot

omit [DecidableEq α] in
theorem findSome_range {f : Nat → Option β} {x : β} (h : (range n).findSome? f = some x) :
    ∃ i < n, f i = some x ∧ ∀ j < i, f j = none := by
  induction n with
  | zero => cases h
  | succ n ih =>
    rw [range_succ, findSome?_append] at h
    cases hfront : (range n).findSome? f with
    | some y =>
      rw [hfront] at h
      obtain ⟨i, hi, hfi, hbefore⟩ := ih (hfront.trans h)
      exact ⟨i, Nat.lt_succ_of_lt hi, hfi, hbefore⟩
    | none =>
      rw [hfront, Option.none_or, findSome?_singleton] at h
      refine ⟨n, Nat.lt_succ_self n, h, fun j hj => ?_⟩
      exact findSome?_eq_none_iff.mp hfront j (List.mem_range.mpr hj)

end Find
