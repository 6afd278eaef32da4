/-
# Scanning a stream read by read

A transducer takes a stream one symbol at a time and reports items, each stamped with the
offset one past the symbol that completed it. A scanner gets the same stream in reads of
any length, stamps within the read at hand, and may skip over symbols it knows to be dull.

The scanner realises the transducer when its states stand for states of the transducer and
one read, whatever its length, leads both to the same place. Where the reads were cut is
then of no consequence, and what is reported can be said of the stream alone.
-/

import Mathlib.Tactic

/-- An item found in a stream, and the offset one past its last symbol. -/
structure Cut (ε : Type) where
  stop : Nat
  item : ε
deriving Repr, DecidableEq

/-- The same cut, counted from `base` symbols earlier. -/
def Cut.shift {ε : Type} (base : Nat) (cut : Cut ε) : Cut ε := { cut with stop := base + cut.stop }

/-- A machine that takes one symbol at a time and may report an item on it. -/
structure Transducer (σ β ε : Type) where
  step : σ → β → σ × Option ε

namespace Transducer

open List

variable {σ τ β ε : Type} (M : Transducer σ β ε)
variable {bs : List β} (s : σ)

/-- The state after a stretch of the stream that starts at `base`, and what was reported. -/
def run (s : σ) (base : Nat) : List β → σ × List (Cut ε)
  | [] => (s, [])
  | b :: bs =>
    let next := M.step s b
    let rest := run next.1 (base + 1) bs
    (rest.1, (next.2.map (Cut.mk (base + 1))).toList ++ rest.2)

theorem run_cons (base : Nat) (b : β) (bs : List β) :
    M.run s base (b :: bs) =
      ((M.run (M.step s b).1 (base + 1) bs).1,
        ((M.step s b).2.map (Cut.mk (base + 1))).toList ++
          (M.run (M.step s b).1 (base + 1) bs).2) :=
  rfl

theorem run_append (base : Nat) (xs ys : List β) :
    M.run s base (xs ++ ys) =
      ((M.run (M.run s base xs).1 (base + xs.length) ys).1,
        (M.run s base xs).2 ++ (M.run (M.run s base xs).1 (base + xs.length) ys).2) := by
  induction xs generalizing s base with
  | nil => rfl
  | cons x xs ih =>
    rw [cons_append, run_cons, run_cons, ih, length_cons, append_assoc]
    rw [Nat.add_assoc base 1, Nat.add_comm 1 xs.length]

/-- Symbols that change nothing and report nothing may be skipped. -/
theorem run_idle {s : σ} (hidle : ∀ b ∈ bs, M.step s b = (s, none)) (base : Nat) :
    M.run s base bs = (s, []) := by
  induction bs generalizing base with
  | nil => rfl
  | cons b bs ih =>
    rw [run_cons, hidle b (mem_cons_self ..)]
    rw [ih (fun b' hb' => hidle b' (mem_cons_of_mem _ hb'))]
    rfl

/-- Only the stamps depend on where a stretch starts. -/
theorem run_shift (base start : Nat) (bs : List β) :
    M.run s (base + start) bs =
      ((M.run s start bs).1, (M.run s start bs).2.map (Cut.shift base)) := by
  induction bs generalizing s start with
  | nil => rfl
  | cons b bs ih =>
    rw [run_cons, run_cons, Nat.add_assoc, ih, map_append]
    cases (M.step s b).2 <;> rfl

theorem state_run (base : Nat) (bs : List β) : (M.run s base bs).1 = (M.run s 0 bs).1 := by
  have hshift := M.run_shift s base 0 bs
  rw [Nat.add_zero] at hshift
  rw [hshift]

/-- An item is reported exactly where the machine, led up to some symbol, reports it on
that symbol. -/
theorem mem_run {s : σ} {base : Nat} {cut : Cut ε} :
    cut ∈ (M.run s base bs).2 ↔
      ∃ before b after, bs = before ++ b :: after ∧ cut.stop = base + before.length + 1 ∧
        (M.step (M.run s base before).1 b).2 = some cut.item := by
  induction bs generalizing s base with
  | nil =>
    constructor
    · intro hmem
      cases hmem
    · rintro ⟨before, b, after, heq, -, -⟩
      cases before <;> cases heq
  | cons b bs ih =>
    rw [run_cons, mem_append, ih]
    constructor
    · rintro (hmem | ⟨before, c, after, rfl, hstop, hstep⟩)
      · obtain ⟨item, hitem, rfl⟩ := Option.map_eq_some_iff.mp (Option.mem_toList.mp hmem)
        exact ⟨[], b, bs, rfl, rfl, hitem⟩
      · refine ⟨b :: before, c, after, rfl, ?_, hstep⟩
        rw [hstop, length_cons]
        omega
    · rintro ⟨before, c, after, heq, hstop, hstep⟩
      cases before with
      | nil =>
        cases heq
        refine .inl (Option.mem_toList.mpr (Option.map_eq_some_iff.mpr ⟨cut.item, hstep, ?_⟩))
        rw [show base + 1 = cut.stop from hstop.symm]
      | cons x before =>
        cases heq
        refine .inr ⟨before, c, after, rfl, ?_, hstep⟩
        rw [hstop, length_cons]
        omega

/-- Looking ahead for the next symbol of a kind splits what is left of a read. -/
theorem split_of_findIdx? {p : β → Bool} {off : Nat} (hfind : bs.findIdx? p = some off) :
    ∃ before b after, bs = before ++ b :: after ∧ off = before.length ∧ p b = true ∧
      ∀ c ∈ before, p c = false := by
  obtain ⟨hlt, hp, hbefore⟩ := List.findIdx?_eq_some_iff_getElem.mp hfind
  refine ⟨bs.take off, bs[off], bs.drop (off + 1), ?_, ?_, hp, ?_⟩
  · rw [getElem_cons_drop, take_append_drop]
  · rw [length_take]
    omega
  · intro c hc
    obtain ⟨j, hj, rfl⟩ := List.mem_iff_getElem.mp hc
    rw [length_take] at hj
    rw [getElem_take]
    exact Bool.eq_false_of_not_eq_true (hbefore j (by omega))

/-- Seeking one kind of symbol, and another only before it, seeks both. -/
theorem findIdx?_window (p q : β → Bool) (bs : List β) :
    ((bs.take ((bs.findIdx? p).getD bs.length)).findIdx? q).or (bs.findIdx? p) =
      bs.findIdx? fun b => p b || q b := by
  induction bs with
  | nil => rfl
  | cons b bs ih =>
    rw [List.findIdx?_cons, List.findIdx?_cons (p := fun b => p b || q b), ← ih]
    cases p b with
    | true => rfl
    | false =>
      rw [Bool.false_or, if_neg Bool.false_ne_true]
      have hwindow : ((bs.findIdx? p).map (· + 1)).getD (bs.length + 1) =
          (bs.findIdx? p).getD bs.length + 1 := by
        cases bs.findIdx? p <;> rfl
      rw [length_cons, hwindow, take_succ_cons, List.findIdx?_cons]
      cases q b with
      | true => rfl
      | false =>
        rw [if_neg Bool.false_ne_true, if_neg Bool.false_ne_true]
        cases (bs.take ((bs.findIdx? p).getD bs.length)).findIdx? q <;> rfl

theorem lt_of_mem_run {s : σ} {base : Nat} {cut : Cut ε}
    (hmem : cut ∈ (M.run s base bs).2) : base < cut.stop := by
  obtain ⟨before, -, -, -, hstop, -⟩ := M.mem_run.mp hmem
  omega

/-- Items come in the order of the stream, at most one to a symbol. -/
theorem sorted_run (base : Nat) (bs : List β) :
    (M.run s base bs).2.Pairwise fun earlier later => earlier.stop < later.stop := by
  induction bs generalizing s base with
  | nil => exact List.Pairwise.nil
  | cons b bs ih =>
    rw [run_cons, pairwise_append]
    refine ⟨?_, ih _ _, ?_⟩
    · cases (M.step s b).2 with
      | none => exact List.Pairwise.nil
      | some item => exact pairwise_singleton _ _
    · intro earlier hearlier later hlater
      obtain ⟨item, -, rfl⟩ := Option.map_eq_some_iff.mp (Option.mem_toList.mp hearlier)
      exact M.lt_of_mem_run hlater

section Loop

variable (render : σ → τ) (loop : τ → Nat → List β → τ × List (Cut ε))

/-- From `s`, with `rest` ahead, the loop takes dull symbols together with the next one that
matters, or takes all that is left. -/
def Skips (s : σ) (i : Nat) (rest : List β) : Prop :=
  (∃ s', M.run s i rest = (s', []) ∧ loop (render s) i rest = (render s', [])) ∨
    ∃ before c after s', rest = before ++ c :: after ∧ M.run s i before = (s', []) ∧
      loop (render s) i rest =
        ((loop (render (M.step s' c).1) (i + before.length + 1) after).1,
          ((M.step s' c).2.map (Cut.mk (i + before.length + 1))).toList ++
            (loop (render (M.step s' c).1) (i + before.length + 1) after).2)

/-- A loop that takes one symbol skips. -/
theorem skips_one {s : σ} {i : Nat} {b : β} {tail : List β} (hone : loop (render s) i (b :: tail) =
      ((loop (render (M.step s b).1) (i + 1) tail).1,
        ((M.step s b).2.map (Cut.mk (i + 1))).toList ++
          (loop (render (M.step s b).1) (i + 1) tail).2)) :
    M.Skips render loop s i (b :: tail) :=
  .inr ⟨[], b, tail, s, rfl, rfl, hone⟩

/-- A loop that always skips does what the transducer does. -/
theorem loop_of_skips (hskips : ∀ s i rest, M.Skips render loop s i rest) (s : σ) (i : Nat)
    (rest : List β) :
    loop (render s) i rest = (render (M.run s i rest).1, (M.run s i rest).2) := by
  -- induction on the symbols ahead, of which each turn of the loop takes at least one
  induction hlen : rest.length using Nat.strong_induction_on generalizing s i rest with
  | _ n ih =>
    rcases hskips s i rest with ⟨s', hrun, hloop⟩ | ⟨before, c, after, s', rfl, hrun, hloop⟩
    · rw [hloop, hrun]
    · have hlt : after.length < n := by
        rw [← hlen, length_append, length_cons]
        omega
      rw [hloop, ih after.length hlt _ _ after rfl, run_append, hrun, run_cons]
      rfl

end Loop

/-- Scan one read after the other, counting offsets from the start of the stream. -/
def reads (scan : τ → List β → τ × List (Cut ε)) (t : τ) (base : Nat) :
    List (List β) → τ × List (Cut ε)
  | [] => (t, [])
  | read :: rest =>
    let first := scan t read
    let later := reads scan first.1 (base + read.length) rest
    (later.1, first.2.map (Cut.shift base) ++ later.2)

/-- A scan of any one read does what the transducer does. -/
def Realises (render : σ → τ) (scan : τ → List β → τ × List (Cut ε)) : Prop :=
  ∀ s read, scan (render s) read = (render (M.run s 0 read).1, (M.run s 0 read).2)

/-- A scanner that realises a transducer is indifferent to how the stream is cut. -/
theorem Realises.reads {M : Transducer σ β ε} {render : σ → τ}
    {scan : τ → List β → τ × List (Cut ε)} (h : M.Realises render scan) (s : σ) (base : Nat)
    (stream : List (List β)) :
    Transducer.reads scan (render s) base stream =
      (render (M.run s base stream.flatten).1, (M.run s base stream.flatten).2) := by
  induction stream generalizing s base with
  | nil => rfl
  | cons read rest ih =>
    have hshift := M.run_shift s base 0 read
    rw [Nat.add_zero] at hshift
    rw [Transducer.reads, h s read, ih, flatten_cons, run_append, hshift]

end Transducer
