/-
# Command boundaries

A terminal remembers when the commands typed into its shell started and how they ended, and
keeps the newest of them. Each start and each end is stamped from one counter, which others
draw from as well. A waiter asks for the first command that started after a floor: it is told
what it would be told if nothing had ever been dropped, or that the answer is gone.

The history is the same component without a bound. The two are run side by side, with a waiter
that goes on from the start of each command it is told of.
-/

import Mathlib.Tactic

namespace Shux.Vt

open List Option

/-- Ended commands that are kept. -/
def keepEnded : Nat := 32

/-- How the end of a command was learned. -/
inductive EndedBy where
  | ownMark
  | prompt
  | nextCommand
deriving DecidableEq, Repr

/-- One command that started and ended. -/
structure CommandRecord where
  started : Nat
  ended : Nat
  exitCode : Option Int
  endedBy : EndedBy
deriving DecidableEq, Repr

/-- The earliest ended command that started after a floor. -/
inductive CommandLookup where
  | found (c : CommandRecord)
  | pending
  | overrun
deriving DecidableEq, Repr

structure CommandBoundaries where
  /-- The start stamp of the command running now. -/
  running : Option Nat
  ended : List CommandRecord
  /-- The start stamp of the newest record that was dropped. -/
  droppedThrough : Nat
deriving DecidableEq, Repr

namespace CommandBoundaries

def default : CommandBoundaries := ⟨none, [], 0⟩

/-- Drop the oldest records past the bound. -/
def evict (droppedThrough : Nat) : List CommandRecord → List CommandRecord × Nat
  | [] => ([], droppedThrough)
  | old :: rest =>
    if keepEnded < (old :: rest).length then evict old.started rest
    else (old :: rest, droppedThrough)

/-- End the command that is running, with the next stamp. -/
def close (b : CommandBoundaries) (counter : Nat) (exitCode : Option Int) (endedBy : EndedBy) :
    CommandBoundaries × Nat :=
  match b.running with
  | none => (b, counter)
  | some started =>
    let (ended, droppedThrough) :=
      evict b.droppedThrough (b.ended ++ [⟨started, counter + 1, exitCode, endedBy⟩])
    (⟨none, ended, droppedThrough⟩, counter + 1)

def onStart (b : CommandBoundaries) (counter : Nat) : CommandBoundaries × Nat :=
  let (b, counter) := b.close counter none .nextCommand
  ({ b with running := some (counter + 1) }, counter + 1)

/-- The newest end stamp, or 0. -/
def lastEnd (b : CommandBoundaries) : Nat := (b.ended.getLast?.map CommandRecord.ended).getD 0

def firstAfter (b : CommandBoundaries) (floor : Nat) : CommandLookup :=
  if floor < b.droppedThrough then .overrun
  else
    match b.ended.find? fun c => decide (floor < c.started) with
    | none => .pending
    | some c => .found c

end CommandBoundaries

/-- Every command that has ended, and the one that is running. -/
structure CommandHistory where
  running : Option Nat
  ended : List CommandRecord
deriving DecidableEq, Repr

namespace CommandHistory

def close (h : CommandHistory) (counter : Nat) (exitCode : Option Int) (endedBy : EndedBy) :
    CommandHistory :=
  match h.running with
  | none => h
  | some started => ⟨none, h.ended ++ [⟨started, counter + 1, exitCode, endedBy⟩]⟩

/-- The commands that started after a floor. -/
def after (h : CommandHistory) (floor : Nat) : List CommandRecord :=
  h.ended.filter fun c => decide (floor < c.started)

/-- Every stamp taken, oldest first. -/
def stamps (h : CommandHistory) : List Nat :=
  h.ended.flatMap (fun c => [c.started, c.ended]) ++ h.running.toList

end CommandHistory

/-- A mark of the shell, a stamp that is drawn elsewhere, or a question of the waiter. -/
inductive CommandEvent where
  | start
  | finish (exitCode : Option Int)
  | prompt
  | draw
  | ask
deriving DecidableEq, Repr

/-- A terminal with its whole history, and a waiter with what it has been told. -/
structure CommandWatch where
  counter : Nat
  boundaries : CommandBoundaries
  history : CommandHistory
  floor : Nat
  seen : List CommandRecord
deriving DecidableEq, Repr

namespace CommandWatch

def new (counter floor : Nat) : CommandWatch := ⟨counter, .default, ⟨none, []⟩, floor, []⟩

/-- The waiter goes on from the start of the command it is told of. -/
def ask (w : CommandWatch) : CommandWatch :=
  match w.boundaries.firstAfter w.floor with
  | .found c => { w with floor := c.started, seen := w.seen ++ [c] }
  | _ => w

/-- A command ends in the terminal and in the history. -/
def close (w : CommandWatch) (exitCode : Option Int) (endedBy : EndedBy) : CommandWatch :=
  let (boundaries, counter) := w.boundaries.close w.counter exitCode endedBy
  { w with boundaries, counter, history := w.history.close w.counter exitCode endedBy }

def step (w : CommandWatch) : CommandEvent → CommandWatch
  | .start =>
    let (boundaries, counter) := w.boundaries.onStart w.counter
    { w with
      boundaries, counter
      history := { w.history.close w.counter none .nextCommand with running := some counter } }
  | .finish exitCode => w.close exitCode .ownMark
  | .prompt => w.close none .prompt
  | .draw => { w with counter := w.counter + 1 }
  | .ask => w.ask

def run (w : CommandWatch) (events : List CommandEvent) : CommandWatch := events.foldl step w

/-- The terminal holds the end of the history, in which stamps only grow, and the waiter has
been told of all that it has not yet to be told of. -/
structure Follows (start : Nat) (w : CommandWatch) : Prop where
  running : w.boundaries.running = w.history.running
  split : ∃ dropped, w.history.ended = dropped ++ w.boundaries.ended ∧
    w.boundaries.droppedThrough = (dropped.getLast?.map CommandRecord.started).getD 0
  newest : w.boundaries.ended = [] → w.history.ended = []
  stamps : w.history.stamps.Pairwise (· < ·)
  drawn : ∀ stamp ∈ w.history.stamps, stamp ≤ w.counter
  floor : w.floor = start ∨ start < w.floor ∧ ∃ c ∈ w.history.ended, c.started = w.floor
  told : w.seen ++ w.history.after w.floor = w.history.after start

end CommandWatch

namespace CommandHistory

variable {h : CommandHistory}

/-- Commands start one after the other. -/
theorem started_of_stamps (hs : h.stamps.Pairwise (· < ·)) :
    h.ended.Pairwise fun c c' => c.started < c'.started := by
  have hended := (pairwise_append.mp hs).1
  rw [pairwise_flatMap] at hended
  exact hended.2.imp fun hlt => hlt _ (by simp) _ (by simp)

/-- The first command after a floor is followed by those after its own start. -/
theorem after_eq_cons (hs : h.stamps.Pairwise (· < ·)) {floor : Nat} {c : CommandRecord}
    (hfind : h.ended.find? (fun c => decide (floor < c.started)) = some c) :
    floor < c.started ∧ h.after floor = c :: h.after c.started := by
  have hstarted := started_of_stamps hs
  obtain ⟨hc, front, back, heq, hfront⟩ := List.find?_eq_some_iff_append.mp hfind
  have hfloor := of_decide_eq_true hc
  rw [heq, pairwise_append] at hstarted
  obtain ⟨-, hback, -⟩ := hstarted
  have hlater := (pairwise_cons.mp hback).1
  have hbefore : ∀ c' ∈ front, c'.started ≤ floor := by
    intro c' hc'
    have hnot := hfront c' hc'
    simpa using hnot
  unfold after
  rw [heq, filter_append, filter_append, filter_cons_of_pos (by simpa using hfloor),
    filter_cons_of_neg (by simp)]
  have hnone : ∀ f, floor ≤ f → front.filter (fun c => decide (f < c.started)) = [] := by
    intro f hf
    refine filter_eq_nil_iff.mpr fun c' hc' => ?_
    have hle := (hbefore c' hc').trans hf
    simpa using hle
  have hall : ∀ f, f ≤ c.started → back.filter (fun c => decide (f < c.started)) = back := by
    intro f hf
    refine filter_eq_self.mpr fun c' hc' => ?_
    have hlt := hf.trans_lt (hlater c' hc')
    simpa using hlt
  rw [hnone floor le_rfl, hnone _ hfloor.le, hall floor hfloor.le, hall _ le_rfl]
  exact ⟨hfloor, rfl⟩

theorem head?_after (h : CommandHistory) (floor : Nat) :
    (h.after floor).head? = h.ended.find? fun c => decide (floor < c.started) := by
  unfold after
  rw [List.head?_filter]

/-- What a waiter is told when only these commands are kept. -/
def answer (h : CommandHistory) (kept : List CommandRecord) (floor : Nat) : CommandLookup :=
  match (h.after floor).head? with
  | none => .pending
  | some c => if c ∈ kept then .found c else .overrun

end CommandHistory

namespace CommandWatch

variable {start : Nat} {w : CommandWatch}

theorem evict_spec (dropped kept : List CommandRecord) (hkept : kept ≠ []) :
    ∃ more, dropped ++ kept = more ++ (CommandBoundaries.evict
        ((dropped.getLast?.map CommandRecord.started).getD 0) kept).1 ∧
      (CommandBoundaries.evict ((dropped.getLast?.map CommandRecord.started).getD 0) kept).2 =
        (more.getLast?.map CommandRecord.started).getD 0 ∧
      (CommandBoundaries.evict
        ((dropped.getLast?.map CommandRecord.started).getD 0) kept).1 ≠ [] := by
  induction kept generalizing dropped with
  | nil => exact absurd rfl hkept
  | cons old rest ih =>
    unfold CommandBoundaries.evict
    by_cases hover : keepEnded < (old :: rest).length
    · rw [if_pos hover]
      have hrest : rest ≠ [] := by
        intro hnil
        rw [hnil] at hover
        exact absurd hover (by simp [keepEnded])
      obtain ⟨more, heq, hthrough, hne⟩ := ih (dropped ++ [old]) hrest
      rw [List.getLast?_concat, map_some, getD_some] at heq hthrough hne
      rw [append_assoc, singleton_append] at heq
      exact ⟨more, heq, hthrough, hne⟩
    · rw [if_neg hover]
      exact ⟨dropped, rfl, rfl, cons_ne_nil _ _⟩

section

variable (h : Follows start w)
include h

/-- The ring answers as the history does. -/
theorem Follows.firstAfter (floor : Nat) :
    w.boundaries.firstAfter floor = w.history.answer w.boundaries.ended floor := by
  obtain ⟨dropped, heq, hthrough⟩ := h.split
  have hstarted := CommandHistory.started_of_stamps h.stamps
  rw [heq, pairwise_append] at hstarted
  obtain ⟨hdropped, -, hapart⟩ := hstarted
  unfold CommandBoundaries.firstAfter CommandHistory.answer
  rw [CommandHistory.head?_after, heq, List.find?_append]
  by_cases hover : floor < w.boundaries.droppedThrough
  · -- the newest dropped command started after the floor
    rw [if_pos hover]
    rw [hthrough] at hover
    cases hfind : dropped.find? fun c => decide (floor < c.started) with
    | none =>
      cases hlast : dropped.getLast? with
      | none =>
        rw [hlast] at hover
        exact absurd hover (Nat.not_lt_zero _)
      | some c =>
        rw [hlast] at hover
        have hnot := List.find?_eq_none.mp hfind c (mem_of_getLast? hlast)
        exact absurd (decide_eq_true hover) hnot
    | some c =>
      have hmem := mem_of_find?_eq_some hfind
      have hnew : c ∉ w.boundaries.ended := fun hc => lt_irrefl _ (hapart c hmem c hc)
      rw [some_or]
      exact (if_neg hnew).symm
  · rw [if_neg hover]
    have hnone : dropped.find? (fun c => decide (floor < c.started)) = none := by
      refine List.find?_eq_none.mpr fun c hc hlt => hover ?_
      rw [hthrough]
      obtain ⟨front, last, rfl⟩ := (eq_nil_or_concat' dropped).resolve_left
        (ne_nil_of_mem hc)
      rw [List.getLast?_concat, map_some, getD_some]
      have hle : c.started ≤ last.started := by
        rcases mem_append.mp hc with hfront | hlast
        · exact ((pairwise_append.mp hdropped).2.2 c hfront last (by simp)).le
        · rw [mem_singleton.mp hlast]
      exact (of_decide_eq_true hlt).trans_le hle
    rw [hnone, none_or]
    cases hfind : w.boundaries.ended.find? fun c => decide (floor < c.started) with
    | none => rfl
    | some c => exact (if_pos (mem_of_find?_eq_some hfind)).symm

/-- An answer takes the waiter to the next command. -/
theorem Follows.ask : Follows start w.ask := by
  have hanswer := h.firstAfter w.floor
  unfold CommandWatch.ask
  unfold CommandHistory.answer at hanswer
  rw [CommandHistory.head?_after] at hanswer
  cases hfind : w.history.ended.find? fun c => decide (w.floor < c.started) with
  | none =>
    rw [hfind] at hanswer
    rw [hanswer]
    exact h
  | some c =>
    rw [hfind] at hanswer
    dsimp only at hanswer
    split at hanswer
    · rw [hanswer]
      obtain ⟨hlt, hafter⟩ := CommandHistory.after_eq_cons h.stamps hfind
      have hstart : start < c.started := by
        rcases h.floor with heq | ⟨hgt, -⟩
        · exact heq ▸ hlt
        · exact hgt.trans hlt
      refine ⟨h.running, h.split, h.newest, h.stamps, h.drawn, ?_, ?_⟩
      · exact .inr ⟨hstart, c, mem_of_find?_eq_some hfind, rfl⟩
      · have htold := h.told
        rw [hafter] at htold
        rw [← htold, append_assoc]
        rfl
    · rw [hanswer]
      exact h

/-- A command that ends is stamped last, in the ring and in the history. -/
theorem Follows.close (exitCode : Option Int) (endedBy : EndedBy) :
    Follows start (w.close exitCode endedBy) ∧
      (w.close exitCode endedBy).history.running = none := by
  have hrun := h.running
  unfold CommandWatch.close CommandBoundaries.close CommandHistory.close
  cases hrunning : w.history.running with
  | none =>
    rw [hrunning] at hrun
    rw [hrun]
    exact ⟨h, hrunning⟩
  | some started =>
    rw [hrunning] at hrun
    rw [hrun]
    dsimp only
    obtain ⟨dropped, heq, hthrough⟩ := h.split
    obtain ⟨more, hmore, hnewest, hne⟩ := evict_spec dropped
      (w.boundaries.ended ++ [⟨started, w.counter + 1, exitCode, endedBy⟩])
      (by simp)
    have hstamps := h.stamps
    have hdrawn := h.drawn
    unfold CommandHistory.stamps at hstamps hdrawn
    rw [hrunning] at hstamps hdrawn
    -- every command so far started before the one that ends now
    have hbefore : ∀ c ∈ w.history.ended, c.started < started := by
      intro c hc
      exact (pairwise_append.mp hstamps).2.2 c.started
        (mem_flatMap.mpr ⟨c, hc, by simp⟩) started (by simp)
    have hfloor : start < started ↔ w.floor < started := by
      rcases h.floor with hsame | ⟨hgt, c, hc, hfloor⟩
      · rw [hsame]
      · have hlt := hbefore c hc
        rw [hfloor] at hlt
        exact ⟨fun _ => hlt, fun _ => hgt.trans hlt⟩
    refine ⟨⟨rfl, ⟨more, ?_, ?_⟩, ?_, ?_, ?_, ?_, ?_⟩, rfl⟩
    · rw [heq, append_assoc, hmore, hthrough]
    · rw [hthrough]
      exact hnewest
    · intro hnil
      rw [hthrough] at hnil
      exact absurd hnil hne
    · unfold CommandHistory.stamps
      rw [flatMap_append, toList_none, append_nil]
      have hlast : [(⟨started, w.counter + 1, exitCode, endedBy⟩ : CommandRecord)].flatMap
          (fun c => [c.started, c.ended]) = [started] ++ [w.counter + 1] := rfl
      rw [hlast, ← append_assoc]
      refine pairwise_append.mpr ⟨hstamps, pairwise_singleton _ _, fun a ha b hb => ?_⟩
      rw [mem_singleton.mp hb]
      exact Nat.lt_succ_of_le (hdrawn a ha)
    · intro stamp hstamp
      unfold CommandHistory.stamps at hstamp
      rw [flatMap_append, toList_none, append_nil] at hstamp
      rcases mem_append.mp hstamp with hold | hlast
      · exact (hdrawn stamp (mem_append_left _ hold)).trans (Nat.le_succ _)
      · have hlast : stamp = started ∨ stamp = w.counter + 1 := by simpa using hlast
        rcases hlast with rfl | rfl
        · exact (hdrawn stamp (by simp)).trans (Nat.le_succ _)
        · exact le_rfl
    · rcases h.floor with hsame | ⟨hgt, c, hc, hc'⟩
      · exact .inl hsame
      · exact .inr ⟨hgt, c, mem_append_left _ hc, hc'⟩
    · have htold := h.told
      unfold CommandHistory.after at htold ⊢
      rw [filter_append, filter_append, ← append_assoc, htold]
      congr 1
      by_cases hlt : w.floor < started
      · simp [hlt, hfloor.mpr hlt]
      · simp [hlt, mt hfloor.mp hlt]

/-- A command that starts is stamped last. -/
theorem Follows.begin (hnone : w.history.running = none) :
    Follows start { w with
      boundaries := { w.boundaries with running := some (w.counter + 1) }
      counter := w.counter + 1
      history := { w.history with running := some (w.counter + 1) } } := by
  have hstamps := h.stamps
  have hdrawn := h.drawn
  unfold CommandHistory.stamps at hstamps hdrawn
  rw [hnone, toList_none, append_nil] at hstamps hdrawn
  refine ⟨rfl, h.split, h.newest, ?_, ?_, h.floor, h.told⟩
  · refine pairwise_append.mpr ⟨hstamps, pairwise_singleton _ _, fun a ha b hb => ?_⟩
    rw [mem_singleton.mp hb]
    exact Nat.lt_succ_of_le (hdrawn a ha)
  · intro stamp hstamp
    rcases mem_append.mp hstamp with hold | hnew
    · exact (hdrawn stamp hold).trans (Nat.le_succ _)
    · exact (mem_singleton.mp hnew).le

theorem Follows.step (event : CommandEvent) : Follows start (w.step event) := by
  cases event with
  | start => exact (h.close none .nextCommand).1.begin (h.close none .nextCommand).2
  | finish exitCode => exact (h.close exitCode .ownMark).1
  | prompt => exact (h.close none .prompt).1
  | draw =>
    exact ⟨h.running, h.split, h.newest, h.stamps,
      fun stamp hstamp => (h.drawn stamp hstamp).trans (Nat.le_succ _), h.floor, h.told⟩
  | ask => exact h.ask

end

theorem follows_new (counter start : Nat) : Follows start (new counter start) :=
  ⟨rfl, ⟨[], rfl, rfl⟩, fun h => h, .nil, nofun, .inl rfl, rfl⟩

theorem Follows.run (h : Follows start w) (events : List CommandEvent) :
    Follows start (w.run events) := by
  induction events generalizing w with
  | nil => exact h
  | cons event events ih => exact ih (h.step event)

/-- The answers are those of the whole history, as far as it is kept; stamps only grow; and the
waiter is told of every command after its floor once and in order: of those it has been told of
first, then of the others, to the last one as long as none of them is dropped. -/
structure Answers (start : Nat) (w : CommandWatch) : Prop where
  answer : ∀ floor, w.boundaries.firstAfter floor = w.history.answer w.boundaries.ended floor
  lastEnd : w.boundaries.lastEnd = (w.history.ended.getLast?.map CommandRecord.ended).getD 0
  stamps : w.history.stamps.Pairwise (· < ·)
  told : w.seen ++ w.history.after w.floor = w.history.after start
  drained : w.boundaries.droppedThrough ≤ w.floor → ∀ n, (w.history.after w.floor).length ≤ n →
    (ask^[n] w).seen = w.history.after start

/-- Asking again and again, a waiter that has missed nothing is told of everything. -/
theorem Follows.drained (h : Follows start w) (hkept : w.boundaries.droppedThrough ≤ w.floor)
    {n : Nat} (hn : (w.history.after w.floor).length ≤ n) :
    (CommandWatch.ask^[n] w).seen = w.history.after start := by
  induction n generalizing w with
  | zero =>
    have htold := h.told
    rw [length_eq_zero_iff.mp (Nat.le_zero.mp hn), append_nil] at htold
    exact htold
  | succ n ih =>
    rw [Function.iterate_succ_apply]
    have hlookup : w.boundaries.firstAfter w.floor =
        match w.boundaries.ended.find? fun c => decide (w.floor < c.started) with
        | none => .pending
        | some c => .found c := if_neg (not_lt.mpr hkept)
    have hanswer := h.firstAfter w.floor
    have hnext := h.ask
    unfold CommandHistory.answer at hanswer
    rw [CommandHistory.head?_after] at hanswer
    cases hfind : w.history.ended.find? fun c => decide (w.floor < c.started) with
    | none =>
      rw [hfind] at hanswer
      have hstays : w.ask = w := by
        unfold CommandWatch.ask
        rw [hanswer]
      have hnil : w.history.after w.floor = [] := by
        have hhead := w.history.head?_after w.floor
        rw [hfind] at hhead
        exact List.head?_eq_none_iff.mp hhead
      rw [hstays]
      exact ih h hkept (by rw [hnil]; exact Nat.zero_le _)
    | some c =>
      rw [hfind] at hanswer
      dsimp only at hanswer
      obtain ⟨hlt, hafter⟩ := CommandHistory.after_eq_cons h.stamps hfind
      have hfound : w.boundaries.firstAfter w.floor = .found c := by
        split at hanswer
        · exact hanswer
        · -- nothing after the floor has been dropped
          rw [hanswer] at hlookup
          split at hlookup
          · cases hlookup
          · cases hlookup
      have hgoes : w.ask = { w with floor := c.started, seen := w.seen ++ [c] } := by
        unfold CommandWatch.ask
        rw [hfound]
      rw [hafter, length_cons] at hn
      rw [hgoes] at hnext ⊢
      exact ih hnext (hkept.trans hlt.le) (Nat.le_of_succ_le_succ hn)

theorem Follows.answers (h : Follows start w) : Answers start w where
  answer := h.firstAfter
  lastEnd := by
    obtain ⟨dropped, heq, -⟩ := h.split
    unfold CommandBoundaries.lastEnd
    by_cases hnil : w.boundaries.ended = []
    · rw [hnil, h.newest hnil]
    · rw [heq, List.getLast?_append_of_ne_nil _ hnil]
  stamps := h.stamps
  told := h.told
  drained hkept _ hn := h.drained hkept hn

/-- Whatever marks arrive and whenever the waiter asks, it is answered as by the whole history. -/
theorem run_answers (counter start : Nat) (events : List CommandEvent) :
    Answers start ((new counter start).run events) :=
  ((follows_new counter start).run events).answers

end CommandWatch

end Shux.Vt
