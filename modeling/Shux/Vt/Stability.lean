/-
# Frames that have settled

A waiter reads the revision of a pane and a hash of its frame whenever it wakes, and so may skip
revisions and read one again. Two criteria say that the frame has settled: a number of
revisions in a row with the same hash, and a time for which the hash has not changed. A skipped
revision may have shown another frame, so it starts both over. What the waiter counts as a run of
equal frames is one, in the sequence of all frames, and what it takes for silence is silence.

Times are in nanoseconds, as 64-bit numbers.
-/

import Mathlib.Tactic

namespace Shux.Vt

open List

/-- The largest numbers of 64 and of 32 bits. -/
def u64Max : Nat := 2 ^ 64 - 1
def u32Max : Nat := 2 ^ 32 - 1

def nsPerMs : Nat := 1000000

/-- The stability of a frame across the wakes of a waiter. -/
structure FrameStability (H : Type) where
  lastRev : Nat
  lastHash : H
  runLen : Nat
  lastChangeNs : Nat
  coalesced : Bool
deriving DecidableEq, Repr

/-- What a waiter reads when it wakes. -/
structure Observation (H : Type) where
  rev : Nat
  hash : H
  nowNs : Nat
deriving DecidableEq, Repr

namespace FrameStability

variable {H : Type} [DecidableEq H]

omit [DecidableEq H] in
/-- Seed from the frame at the start. -/
def seed (rev : Nat) (hash : H) (nowNs : Nat) : FrameStability H := ⟨rev, hash, 1, nowNs, false⟩

/-- Fold one wake in. A wake that does not advance the revision is a no-op. -/
def observe (s : FrameStability H) (o : Observation H) : FrameStability H :=
  if o.rev ≤ s.lastRev then s
  else
    let s :=
      if o.rev ≠ s.lastRev + 1 then
        { s with coalesced := true, runLen := 1, lastChangeNs := o.nowNs }
      else if o.hash ≠ s.lastHash then { s with runLen := 1, lastChangeNs := o.nowNs }
      else { s with runLen := min (s.runLen + 1) u32Max }
    { s with lastRev := o.rev, lastHash := o.hash }

def observeAll (s : FrameStability H) (os : List (Observation H)) : FrameStability H :=
  os.foldl observe s

/-- The hold window in nanoseconds, saturating. -/
def holdNs (holdMs : Nat) : Nat := min (holdMs * nsPerMs) u64Max

omit [DecidableEq H] in
/-- Decide against the requested criteria. -/
def isSettled (s : FrameStability H) (stableFrames holdMs nowNs : Nat) : Bool :=
  (decide (stableFrames ≤ 1) || decide (stableFrames ≤ s.runLen)) &&
    (holdMs == 0 || decide (holdNs holdMs ≤ nowNs - s.lastChangeNs))

variable {frames : Nat → H} {rev : Nat} {start : Nat} {os : List (Observation H)}
  {o : Observation H} {s : FrameStability H}

/-- The newest revision among those observed. -/
def latest (rev : Nat) (os : List (Observation H)) : Nat :=
  os.foldl (fun newest o => max newest o.rev) rev

/-- An observation sees a change when it is newer than all before it, and revisions lie in
between or the frame is another one than the newest before it. -/
def SeesChange (frames : Nat → H) (newest : Nat) (o : Observation H) : Prop :=
  newest < o.rev ∧ (newest + 1 < o.rev ∨ frames o.rev ≠ frames newest)

/-- Observations read the true frames, at times that do not go back. -/
structure Truthful (frames : Nat → H) (start : Nat) (os : List (Observation H)) : Prop where
  hash : ∀ o ∈ os, o.hash = frames o.rev
  ordered : (start :: os.map Observation.nowNs).Pairwise (· ≤ ·)

/-- What the waiter knows, said of the sequence of all frames. -/
structure Tracks (frames : Nat → H) (rev : Nat) (os : List (Observation H))
    (s : FrameStability H) : Prop where
  newest : s.lastRev = latest rev os
  hash : s.lastHash = frames s.lastRev
  run : ∀ i < s.runLen, i ≤ s.lastRev ∧ frames (s.lastRev - i) = frames s.lastRev
  changes : ∀ front o back, os = front ++ o :: back → SeesChange frames (latest rev front) o →
    o.nowNs ≤ s.lastChangeNs

section

omit [DecidableEq H]

theorem latest_concat (rev : Nat) (os : List (Observation H)) (o : Observation H) :
    latest rev (os ++ [o]) = max (latest rev os) o.rev := by
  rw [latest, foldl_append]
  rfl

theorem tracks_seed (frames : Nat → H) (rev start : Nat) :
    Tracks frames rev [] (seed rev (frames rev) start) where
  newest := rfl
  hash := rfl
  run i hi := by
    have hzero : i = 0 := Nat.lt_one_iff.mp hi
    exact ⟨hzero ▸ Nat.zero_le _, by rw [hzero, Nat.sub_zero]⟩
  changes front o back h := by
    cases front with
    | nil => cases h
    | cons _ _ => cases h

end

/-- One more observation keeps what is known. -/
theorem Tracks.observe (h : Tracks frames rev os s) (hhash : o.hash = frames o.rev)
    (htime : s.lastChangeNs ≤ o.nowNs) :
    Tracks frames rev (os ++ [o]) (s.observe o) ∧ (s.observe o).lastChangeNs ≤ o.nowNs := by
  have hlatest := latest_concat rev os o
  rw [← h.newest] at hlatest
  -- a change that was seen is the last observation, or was seen before
  have hchanges : ∀ at_ : Nat, s.lastChangeNs ≤ at_ →
      (SeesChange frames s.lastRev o → o.nowNs ≤ at_) →
      ∀ front o' back, os ++ [o] = front ++ o' :: back →
        SeesChange frames (latest rev front) o' → o'.nowNs ≤ at_ := by
    intro at_ hle hlast front o' back heq hsees
    rcases eq_nil_or_concat' back with rfl | ⟨back, o'', rfl⟩
    · obtain ⟨rfl, hone⟩ := append_inj' heq rfl
      cases hone
      exact hlast (h.newest ▸ hsees)
    · rw [← cons_append, ← append_assoc] at heq
      obtain ⟨hfront, -⟩ := append_inj' heq rfl
      exact (h.changes front o' back hfront hsees).trans hle
  by_cases hstale : o.rev ≤ s.lastRev
  · have hsame : s.observe o = s := if_pos hstale
    rw [hsame]
    refine ⟨⟨hlatest ▸ (max_eq_left hstale).symm, h.hash, h.run, ?_⟩, htime⟩
    exact hchanges _ le_rfl fun hsees => absurd hsees.1 (not_lt.mpr hstale)
  have hnewer := not_le.mp hstale
  have hrev : o.rev = latest rev (os ++ [o]) := hlatest ▸ (max_eq_right hnewer.le).symm
  -- a run of one is always one
  have hone : ∀ i < 1, i ≤ o.rev ∧ frames (o.rev - i) = frames o.rev := by
    intro i hi
    rw [Nat.lt_one_iff.mp hi]
    exact ⟨Nat.zero_le _, rfl⟩
  unfold FrameStability.observe
  rw [if_neg hstale]
  dsimp only
  by_cases hskip : o.rev ≠ s.lastRev + 1
  · rw [if_pos hskip]
    exact ⟨⟨hrev, hhash, hone, hchanges _ htime fun _ => le_rfl⟩, le_rfl⟩
  rw [if_neg hskip]
  rw [not_not] at hskip
  by_cases hmoved : o.hash ≠ s.lastHash
  · rw [if_pos hmoved]
    exact ⟨⟨hrev, hhash, hone, hchanges _ htime fun _ => le_rfl⟩, le_rfl⟩
  rw [if_neg hmoved]
  rw [not_not] at hmoved
  have hequal : frames o.rev = frames s.lastRev := by rw [← hhash, hmoved, h.hash]
  refine ⟨⟨hrev, hhash, fun i hi => ?_, hchanges _ le_rfl fun hsees => ?_⟩, htime⟩
  · -- the run goes on by one frame
    show i ≤ o.rev ∧ frames (o.rev - i) = frames o.rev
    cases i with
    | zero => exact ⟨Nat.zero_le _, rfl⟩
    | succ i =>
      obtain ⟨hle, hframe⟩ := h.run i (by
        have hlt := lt_of_lt_of_le hi (min_le_left _ _)
        omega)
      rw [hequal, hskip, Nat.add_sub_add_right]
      exact ⟨Nat.succ_le_succ hle, hframe⟩
  · exact absurd hequal (hsees.2.resolve_left (by omega))

theorem Tracks.observeAll (hos : Truthful frames start os) :
    Tracks frames rev os ((seed rev (frames rev) start).observeAll os) ∧
      ∀ later, (∀ t ∈ start :: os.map Observation.nowNs, t ≤ later) →
        ((seed rev (frames rev) start).observeAll os).lastChangeNs ≤ later := by
  induction os using reverseRecOn with
  | nil => exact ⟨tracks_seed frames rev start, fun later hlater => hlater _ mem_cons_self⟩
  | append_singleton os o ih =>
    have hordered := hos.ordered
    rw [map_append, ← cons_append, pairwise_append] at hordered
    obtain ⟨hfront, -, hlast⟩ := hordered
    obtain ⟨htracks, hbound⟩ := ih
      ⟨fun o' ho' => hos.hash o' (mem_append_left _ ho'), hfront⟩
    have hnext := htracks.observe (hos.hash o (by simp))
      (hbound o.nowNs fun t ht => hlast t ht o.nowNs (by simp))
    unfold FrameStability.observeAll at hnext ⊢
    rw [foldl_append]
    refine ⟨hnext.1, fun later hlater => hnext.2.trans (hlater _ ?_)⟩
    simp

/-- What a waiter may conclude: a run is as many frames in a row that are equal, and a frame that
was held saw no change within the time it was held for. -/
structure Sound (frames : Nat → H) (rev : Nat) (os : List (Observation H))
    (s : FrameStability H) : Prop where
  run : ∀ k ≤ s.runLen, ∀ i < k, i ≤ s.lastRev ∧ frames (s.lastRev - i) = frames s.lastRev
  hold : ∀ stableFrames holdMs nowNs, holdMs ≠ 0 → holdMs * nsPerMs ≤ u64Max →
    s.isSettled stableFrames holdMs nowNs = true →
    ∀ front o back, os = front ++ o :: back → SeesChange frames (latest rev front) o →
      o.nowNs + holdMs * nsPerMs ≤ nowNs

/-- Whatever a waiter observes, in whatever order and with whatever gaps, its conclusions are
sound. -/
theorem observeAll_sound (frames : Nat → H) (rev start : Nat) (os : List (Observation H))
    (hos : Truthful frames start os) :
    Sound frames rev os ((seed rev (frames rev) start).observeAll os) := by
  have htracks : Tracks frames rev os ((seed rev (frames rev) start).observeAll os) :=
    (Tracks.observeAll hos).1
  generalize (seed rev (frames rev) start).observeAll os = s at htracks ⊢
  refine ⟨fun k hk i hi => htracks.run i (hi.trans_le hk), ?_⟩
  intro stableFrames holdMs nowNs hne hunits hsettled front o back heq hsees
  have hchange := htracks.changes front o back heq hsees
  have hheld : holdNs holdMs ≤ nowNs - s.lastChangeNs := by
    simp only [isSettled, Bool.and_eq_true, beq_eq_false_iff_ne.mpr hne, Bool.false_or,
      decide_eq_true_eq] at hsettled
    exact hsettled.2
  rw [holdNs, min_eq_left hunits] at hheld
  have hpos : 0 < holdMs * nsPerMs := Nat.mul_pos (Nat.pos_of_ne_zero hne) (by decide)
  omega

/-- Another frame comes and goes while the waiter sleeps. -/
theorem observeAll_sound_gap :
    Sound (fun rev => if rev = 6 then 1 else 0) 5 [⟨8, 0, 10⟩, ⟨8, 0, 15⟩, ⟨9, 0, 20⟩]
      ((seed 5 0 0).observeAll [⟨8, 0, 10⟩, ⟨8, 0, 15⟩, ⟨9, 0, 20⟩]) :=
  observeAll_sound (fun rev => if rev = 6 then 1 else 0) 5 0 _ ⟨by decide, by decide⟩

end FrameStability

end Shux.Vt
