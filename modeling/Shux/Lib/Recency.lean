/-
# Recency

A log records the keys that were used, oldest first, and a key counts by its last use. A
store that moves a key to the end of its list when it is used, and makes room by dropping
entries at the front, then lists its keys in the order of their last use, and what it drops
is what was not used for longest.
-/

import Mathlib.Data.List.Dedup
import Shux.Lib.Checked

namespace Recency

open Checked List

variable {κ ε σ ι β : Type} [DecidableEq κ]

/-- The keys of a log in the order of their last use. -/
def lastUses (log : List κ) : List κ := log.dedup

theorem nodup_lastUses (log : List κ) : (lastUses log).Nodup := log.nodup_dedup

/-- A use moves its key to the end. -/
theorem lastUses_append_singleton (log : List κ) (k : κ) :
    lastUses (log ++ [k]) = (lastUses log).filter (· != k) ++ [k] := by
  unfold lastUses
  induction log with
  | nil => rfl
  | cons a log ih =>
    rw [cons_append]
    by_cases hmem : a ∈ log
    · rw [dedup_cons_of_mem hmem, dedup_cons_of_mem (mem_append_left _ hmem), ih]
    · rw [dedup_cons_of_notMem hmem]
      by_cases hak : a = k
      · subst hak
        have hlast : a ∈ log ++ [a] := mem_append_right _ mem_cons_self
        rw [dedup_cons_of_mem hlast, ih, filter_cons_of_neg]
        rw [bne_self_eq_false]
        exact Bool.false_ne_true
      · have hfresh : a ∉ log ++ [k] := by
          rw [mem_append, mem_singleton]
          exact not_or.mpr ⟨hmem, hak⟩
        rw [dedup_cons_of_notMem hfresh, ih, filter_cons, if_pos (bne_iff_ne.mpr hak)]
        rfl

/-- Keys in the order of their last use stay so when one of them, or a new one, is used. -/
theorem sublist_use {keys log : List κ} (h : keys.Sublist (lastUses log)) (k : κ) :
    (keys.filter (· != k) ++ [k]).Sublist (lastUses (log ++ [k])) := by
  rw [lastUses_append_singleton]
  exact (h.filter _).append_right [k]

/-- Drop entries at the front until the rest fits. -/
def trim (fits : List ε → Bool) : List ε → List ε
  | [] => []
  | a :: xs => if fits (a :: xs) then a :: xs else trim fits xs

variable {fits : List ε → Bool}

theorem fits_trim (hnil : fits [] = true) (xs : List ε) : fits (trim fits xs) = true := by
  induction xs with
  | nil => exact hnil
  | cons a xs ih =>
    rw [trim]
    split
    · next hfits => exact hfits
    · exact ih

/-- What is dropped is a stretch at the front, and all of it had to go. -/
theorem trim_spec (fits : List ε → Bool) (xs : List ε) :
    ∃ gone, xs = gone ++ trim fits xs ∧
      ∀ k, k < gone.length → fits (gone.drop k ++ trim fits xs) = false := by
  induction xs with
  | nil => exact ⟨[], rfl, fun k hk => absurd hk (Nat.not_lt_zero k)⟩
  | cons a xs ih =>
    rw [trim]
    split
    · exact ⟨[], rfl, fun k hk => absurd hk (Nat.not_lt_zero k)⟩
    · next hfull =>
      obtain ⟨gone, hsplit, hneeded⟩ := ih
      refine ⟨a :: gone, congrArg (a :: ·) hsplit, fun k hk => ?_⟩
      cases k with
      | zero =>
        rw [drop_zero, cons_append, ← hsplit]
        exact Bool.eq_false_of_not_eq_true hfull
      | succ k => exact hneeded k (Nat.lt_of_succ_lt_succ hk)

/-- An entry at the end that fits on its own is never dropped. -/
theorem trim_append_singleton {a : ε} (hlast : fits [a] = true) (xs : List ε) :
    ∃ kept, trim fits (xs ++ [a]) = kept ++ [a] := by
  induction xs with
  | nil =>
    refine ⟨[], ?_⟩
    show trim fits [a] = [a]
    rw [trim, if_pos hlast]
  | cons b xs ih =>
    rw [cons_append, trim]
    split
    · exact ⟨b :: xs, rfl⟩
    · exact ih

/-- What the steps of a run use, each in the state it meets. -/
def used (step : σ → ι → Checked σ) (uses : σ → ι → List β) : σ → List ι → List β
  | _, [] => []
  | s, i :: is => uses s i ++ ((step s i).map fun s' => used step uses s' is).getD []

/-- A run keeps what each of its steps keeps, as the log grows. -/
theorem runs_used {step : σ → ι → Checked σ} {uses : σ → ι → List β} {I : List β → σ → Prop}
    (hstep : ∀ {log s} i, I log s → Runs (step s i) (I (log ++ uses s i)))
    {log : List β} {s : σ} (hs : I log s) (is : List ι) :
    Runs (each is s step) (I (log ++ used step uses s is)) := by
  induction is generalizing log s with
  | nil =>
    rw [used, append_nil]
    exact .pure hs
  | cons i is ih =>
    obtain ⟨s', hs', hnext⟩ := hstep i hs
    obtain ⟨t, ht, hend⟩ := ih hnext
    rw [used, hs', Option.map_some, Option.getD_some, ← append_assoc]
    refine ⟨t, ?_, hend⟩
    rw [each, foldlM_cons, hs']
    exact ht

end Recency
