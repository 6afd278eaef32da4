/-
# Longest stretches

A partial function on the positions below a bound falls into its longest stretches of one value.
They are gathered from the left: a position with the value of the one before it makes the last
stretch longer, another one starts a stretch of its own, and a position without a value belongs
to none.

The list is in order, and what is on it is exactly what is longest.
-/

import Mathlib.Tactic

variable {γ : Type}

/-- Positions `start` to `stop` of one value. -/
structure Stretch (γ : Type) where
  start : Nat
  stop : Nat
  value : γ
  deriving DecidableEq, Repr

namespace Stretch

open List

/-- Move the end of the last stretch. -/
def grow (stop : Nat) (stretches : List (Stretch γ)) : List (Stretch γ) :=
  stretches.dropLast ++ (stretches.getLast?.map fun s => { s with stop }).toList

@[simp] theorem grow_append (stop : Nat) (before : List (Stretch γ)) (s : Stretch γ) :
    grow stop (before ++ [s]) = before ++ [{ s with stop }] := by
  simp [grow]

/-- A stretch of the positions below `n` that is no part of a longer one. -/
structure Longest (f : Nat → Option γ) (n : Nat) (s : Stretch γ) : Prop where
  start_lt : s.start < s.stop
  stop_le : s.stop ≤ n
  value : ∀ c, s.start ≤ c → c < s.stop → f c = some s.value
  ends : s.stop < n → f s.stop ≠ some s.value
  starts : 0 < s.start → f (s.start - 1) ≠ some s.value

variable [DecidableEq γ]

/-- The longest stretches of the positions below a bound. -/
def all (f : Nat → Option γ) : Nat → List (Stretch γ)
  | 0 => []
  | n + 1 =>
    match f n with
    | none => all f n
    | some v =>
      if 0 < n ∧ f (n - 1) = some v then grow (n + 1) (all f n) else all f n ++ [⟨n, n + 1, v⟩]

variable {f g : Nat → Option γ} {n m : Nat} {v : γ}

theorem all_none (h : f n = none) : all f (n + 1) = all f n := by rw [all, h]

theorem all_fresh (h : f n = some v) (hfresh : ¬(0 < n ∧ f (n - 1) = some v)) :
    all f (n + 1) = all f n ++ [⟨n, n + 1, v⟩] := by
  rw [all, h]
  exact if_neg hfresh

theorem all_grown (h : f n = some v) (hsame : 0 < n ∧ f (n - 1) = some v) :
    all f (n + 1) = grow (n + 1) (all f n) := by
  rw [all, h]
  exact if_pos hsame

/-- A value at the last position is that of the last stretch. -/
theorem exists_last (h : f n = some v) :
    ∃ before s, all f (n + 1) = before ++ [s] ∧ s.stop = n + 1 ∧ s.value = v := by
  induction n with
  | zero => exact ⟨_, _, all_fresh h (by omega), rfl, rfl⟩
  | succ n ih =>
    by_cases hsame : f n = some v
    · obtain ⟨before, s, hlast, -, hvalue⟩ := ih hsame
      refine ⟨before, { s with stop := n + 2 }, ?_, rfl, hvalue⟩
      rw [all_grown h ⟨Nat.succ_pos n, hsame⟩, hlast, grow_append]
    · exact ⟨_, _, all_fresh h fun hcontra => hsame hcontra.2, rfl, rfl⟩

theorem exists_grown (hsame : 0 < n ∧ f (n - 1) = some v) :
    ∃ before s, all f n = before ++ [s] ∧ s.stop = n ∧ s.value = v := by
  obtain ⟨m, rfl⟩ := Nat.exists_eq_succ_of_ne_zero hsame.1.ne'
  exact exists_last hsame.2

/-- The stretches lie below the bound and one after the other. -/
theorem all_ordered (f : Nat → Option γ) (n : Nat) :
    (all f n).Pairwise (fun p q => p.stop ≤ q.start) ∧
      ∀ s ∈ all f n, s.start < s.stop ∧ s.stop ≤ n := by
  induction n with
  | zero => exact ⟨.nil, nofun⟩
  | succ n ih =>
    obtain ⟨hpair, hbound⟩ := ih
    cases hn : f n with
    | none =>
      rw [all_none hn]
      exact ⟨hpair, fun s hs => ⟨(hbound s hs).1, Nat.le_succ_of_le (hbound s hs).2⟩⟩
    | some v =>
      by_cases hsame : 0 < n ∧ f (n - 1) = some v
      · obtain ⟨before, t, hlast, hstop, -⟩ := exists_grown hsame
        have ht := hbound t (by rw [hlast]; simp)
        rw [all_grown hn hsame, hlast, grow_append]
        rw [hlast, pairwise_append] at hpair
        constructor
        · refine pairwise_append.mpr ⟨hpair.1, pairwise_singleton _ _, ?_⟩
          intro p hp q hq
          rw [mem_singleton.mp hq]
          exact hpair.2.2 p hp t (mem_singleton_self t)
        · intro s hs
          rcases mem_append.mp hs with hs | hs
          · have hs' := hbound s (by rw [hlast]; exact mem_append_left _ hs)
            exact ⟨hs'.1, Nat.le_succ_of_le hs'.2⟩
          · rw [mem_singleton.mp hs]
            exact ⟨Nat.lt_succ_of_lt (lt_of_lt_of_le ht.1 ht.2), le_rfl⟩
      · rw [all_fresh hn hsame]
        constructor
        · refine pairwise_append.mpr ⟨hpair, pairwise_singleton _ _, ?_⟩
          intro p hp q hq
          rw [mem_singleton.mp hq]
          exact (hbound p hp).2
        · intro s hs
          rcases mem_append.mp hs with hs | hs
          · exact ⟨(hbound s hs).1, Nat.le_succ_of_le (hbound s hs).2⟩
          · rw [mem_singleton.mp hs]
            exact ⟨Nat.lt_succ_self n, le_rfl⟩

section

omit [DecidableEq γ]

/-- A position without a value changes nothing. -/
theorem longest_none (h : f n = none) (s : Stretch γ) : Longest f (n + 1) s ↔ Longest f n s := by
  constructor
  · intro hs
    have hne : s.stop ≠ n + 1 := by
      intro hstop
      have hlt := hs.start_lt
      have hvalue := hs.value n (by omega) (by omega)
      rw [h] at hvalue
      cases hvalue
    have hle := hs.stop_le
    exact { hs with stop_le := by omega, ends := fun hlt => hs.ends (by omega) }
  · intro hs
    refine { hs with stop_le := Nat.le_succ_of_le hs.stop_le, ends := fun hlt hvalue => ?_ }
    rcases Nat.lt_or_ge s.stop n with hlt' | hge
    · exact hs.ends hlt' hvalue
    · rw [show s.stop = n by omega, h] at hvalue
      cases hvalue

/-- A value that the position before does not have starts a stretch. -/
theorem longest_fresh (h : f n = some v) (hfresh : ¬(0 < n ∧ f (n - 1) = some v))
    (s : Stretch γ) : Longest f (n + 1) s ↔ Longest f n s ∨ s = ⟨n, n + 1, v⟩ := by
  constructor
  · intro hs
    have hlt := hs.start_lt
    have hle := hs.stop_le
    by_cases hstop : s.stop = n + 1
    · have hvalue : s.value = v :=
        (Option.some.inj (h.symm.trans (hs.value n (by omega) (by omega)))).symm
      have hstart : s.start = n := by
        by_contra hne
        exact hfresh ⟨by omega, by rw [← hvalue]; exact hs.value (n - 1) (by omega) (by omega)⟩
      refine .inr ?_
      cases s
      simp_all
    · exact .inl { hs with stop_le := by omega, ends := fun hlt' => hs.ends (by omega) }
  · rintro (hs | rfl)
    · refine { hs with stop_le := Nat.le_succ_of_le hs.stop_le, ends := fun hlt hvalue => ?_ }
      have hlt' := hs.start_lt
      have hle := hs.stop_le
      rcases Nat.lt_or_ge s.stop n with hbelow | hge
      · exact hs.ends hbelow hvalue
      · have hstop : s.stop = n := by omega
        rw [hstop, h] at hvalue
        refine hfresh ⟨by omega, ?_⟩
        rw [hvalue]
        exact hs.value (n - 1) (by omega) (by omega)
    · refine ⟨Nat.lt_succ_self n, le_rfl, ?_, ?_, ?_⟩
      · intro c hge hlt
        dsimp only at hge hlt
        rw [show c = n by omega]
        exact h
      · intro hlt
        exact absurd hlt (lt_irrefl _)
      · intro hpos hvalue
        exact hfresh ⟨hpos, hvalue⟩

end

/-- The stretches on the list are the longest ones. -/
theorem mem_all_iff {s : Stretch γ} : s ∈ all f n ↔ Longest f n s := by
  induction n generalizing s with
  | zero =>
    constructor
    · intro hs
      cases hs
    · intro hs
      have hlt := hs.start_lt
      have hle := hs.stop_le
      omega
  | succ n ih =>
    cases hn : f n with
    | none => rw [all_none hn, ih, longest_none hn]
    | some v =>
      by_cases hsame : 0 < n ∧ f (n - 1) = some v
      · obtain ⟨before, t, hlast, hstop, hvalue⟩ := exists_grown hsame
        have ht : Longest f n t := ih.mp (by rw [hlast]; simp)
        have hordered := (all_ordered f n).1
        rw [hlast, pairwise_append] at hordered
        -- what comes before the last stretch ends before it
        have hbefore : ∀ p ∈ before, p.stop < n := by
          intro p hp
          have hle := hordered.2.2 p hp t (mem_singleton_self t)
          have hlt := ht.start_lt
          omega
        rw [all_grown hn hsame, hlast, grow_append, mem_append, mem_singleton]
        constructor
        · rintro (hs | rfl)
          · have hlong : Longest f n s := ih.mp (by rw [hlast]; simp [hs])
            exact { hlong with
              stop_le := Nat.le_succ_of_le hlong.stop_le
              ends := fun _ => hlong.ends (hbefore s hs) }
          · refine ⟨?_, le_rfl, ?_, fun hlt => absurd hlt (lt_irrefl _), ht.starts⟩
            · have hlt := ht.start_lt
              dsimp only
              omega
            · intro c hge hlt
              dsimp only at hge hlt ⊢
              rcases Nat.lt_or_ge c n with hc | hc
              · exact ht.value c hge (by omega)
              · rw [show c = n by omega, hn, hvalue]
        · intro hs
          have hlt := hs.start_lt
          have hle := hs.stop_le
          by_cases hfull : s.stop = n + 1
          · have hsvalue : s.value = v :=
              (Option.some.inj (hn.symm.trans (hs.value n (by omega) (by omega)))).symm
            have hstart : s.start < n := by
              by_contra hge
              refine hs.starts (by omega) ?_
              rw [show s.start - 1 = n - 1 by omega, hsvalue]
              exact hsame.2
            have hcut : Longest f n { s with stop := n } :=
              ⟨hstart, le_rfl, fun c hge hc => hs.value c hge (by dsimp only at hc; omega),
                fun hc => absurd hc (lt_irrefl _), hs.starts⟩
            have hmem := ih.mpr hcut
            rw [hlast, mem_append, mem_singleton] at hmem
            rcases hmem with hmem | heq
            · exact absurd (hbefore _ hmem) (lt_irrefl _)
            · refine .inr ?_
              rw [← heq]
              cases s
              simp_all
          · have hcut : Longest f n s :=
              { hs with stop_le := by omega, ends := fun _ => hs.ends (by omega) }
            have hmem := ih.mpr hcut
            rw [hlast, mem_append, mem_singleton] at hmem
            rcases hmem with hmem | rfl
            · exact .inl hmem
            · refine absurd ?_ (hs.ends (by omega))
              rw [hstop, hvalue]
              exact hn
      · rw [all_fresh hn hsame, mem_append, mem_singleton, ih, longest_fresh hn hsame]

/-- Stretches depend on the positions below the bound. -/
theorem all_congr (h : ∀ c < n, f c = g c) : all f n = all g n := by
  induction n with
  | zero => rfl
  | succ n ih =>
    have hbelow := ih fun c hc => h c (by omega)
    have hlast : 0 < n → f (n - 1) = g (n - 1) := fun hpos => h _ (by omega)
    unfold all
    rw [hbelow, h n (Nat.lt_succ_self n)]
    cases g n with
    | none => rfl
    | some v =>
      refine if_congr (and_congr_right fun hpos => ?_) rfl rfl
      rw [hlast hpos]

/-- Positions without a value at the end are of no account. -/
theorem all_skip (hnm : n ≤ m) (h : ∀ c, n ≤ c → c < m → f c = none) : all f m = all f n := by
  induction m, hnm using Nat.le_induction with
  | base => rfl
  | succ m hnm ih =>
    rw [all_none (h m hnm (Nat.lt_succ_self m)), ih fun c hge hlt => h c hge (by omega)]

theorem length_all_le (f : Nat → Option γ) (n : Nat) : (all f n).length ≤ n := by
  induction n with
  | zero => exact le_rfl
  | succ n ih =>
    cases hn : f n with
    | none =>
      rw [all_none hn]
      exact Nat.le_succ_of_le ih
    | some v =>
      by_cases hsame : 0 < n ∧ f (n - 1) = some v
      · obtain ⟨before, t, hlast, -, -⟩ := exists_grown hsame
        rw [hlast, length_append, length_singleton] at ih
        rw [all_grown hn hsame, hlast, grow_append, length_append, length_singleton]
        omega
      · rw [all_fresh hn hsame, length_append, length_singleton]
        omega

end Stretch
